/-! # Ordered sets

A finite set is the strictly increasing list of its members, so two sets with the same members are
the same value. `OrderedSet.ofList` forgets order and repetition and keeps membership. -/

namespace ShardQuery

variable {α : Type} [Ord α]

/-- Puts `a` at its place in an increasing list, where an equal member stands already if there is one. -/
def insertIncreasing (a : α) : List α → List α
  | [] => [a]
  | b :: bs =>
    match compare a b with
    | .lt => a :: b :: bs
    | .eq => b :: bs
    | .gt => b :: insertIncreasing a bs

theorem mem_insertIncreasing [Std.LawfulEqOrd α] {a x : α} {l : List α} :
    x ∈ insertIncreasing a l ↔ x = a ∨ x ∈ l := by
  induction l with
  | nil => simp [insertIncreasing]
  | cons b bs ih =>
    unfold insertIncreasing
    split
    · simp
    · next h =>
      have hab : a = b := Std.LawfulEqOrd.eq_of_compare h
      simp [hab]
    · simp [ih, or_left_comm]

theorem insertIncreasing_increasing [Std.TransOrd α] [Std.LawfulEqOrd α] (a : α) {l : List α}
    (h : l.Pairwise (fun x y => compare x y = .lt)) :
    (insertIncreasing a l).Pairwise (fun x y => compare x y = .lt) := by
  induction l with
  | nil => simp [insertIncreasing]
  | cons b bs ih =>
    obtain ⟨hb, hbs⟩ := List.pairwise_cons.1 h
    unfold insertIncreasing
    split
    · next hab =>
      refine List.pairwise_cons.2 ⟨fun y hy => ?_, h⟩
      rcases List.mem_cons.1 hy with rfl | hy
      · exact hab
      · exact Std.TransCmp.lt_trans hab (hb y hy)
    · exact h
    · next hab =>
      refine List.pairwise_cons.2 ⟨fun y hy => ?_, ih hbs⟩
      rcases mem_insertIncreasing.1 hy with rfl | hy
      · exact Std.OrientedCmp.lt_of_gt hab
      · exact hb y hy

theorem eq_of_increasing [Std.TransOrd α] {β : Type} (key : β → α) {l m : List β}
    (hl : l.Pairwise fun x y => compare (key x) (key y) = .lt)
    (hm : m.Pairwise fun x y => compare (key x) (key y) = .lt) (h : ∀ x, x ∈ l ↔ x ∈ m) : l = m := by
  have hnodup {l : List β} (hl : l.Pairwise fun x y => compare (key x) (key y) = .lt) : l.Nodup := by
    refine hl.imp ?_
    rintro x y hlt rfl
    simp at hlt
  have hperm : l.Perm m := (List.perm_ext_iff_of_nodup (hnodup hl) (hnodup hm)).2 h
  refine hperm.eq_of_pairwise ?_ hl hm
  intro x y _ _ hxy hyx
  exact absurd hyx (Std.OrientedCmp.not_lt_of_lt hxy)

/-- A finite set, held as the increasing list of its members. -/
structure OrderedSet (α : Type) [Ord α] where
  toList : List α
  increasing : toList.Pairwise (fun x y => compare x y = .lt)

namespace OrderedSet

theorem ext {s t : OrderedSet α} (h : s.toList = t.toList) : s = t := by
  cases s; cases t; cases h; rfl

instance [DecidableEq α] : DecidableEq (OrderedSet α) := fun s t =>
  if h : s.toList = t.toList then .isTrue (ext h) else .isFalse fun e => h (e ▸ rfl)

def empty : OrderedSet α := ⟨[], .nil⟩

instance : EmptyCollection (OrderedSet α) := ⟨empty⟩
instance : Inhabited (OrderedSet α) := ⟨empty⟩
instance : Membership α (OrderedSet α) := ⟨fun s a => a ∈ s.toList⟩

instance [DecidableEq α] (a : α) (s : OrderedSet α) : Decidable (a ∈ s) :=
  inferInstanceAs (Decidable (a ∈ s.toList))

def size (s : OrderedSet α) : Nat := s.toList.length

def isEmpty (s : OrderedSet α) : Bool := s.toList.isEmpty

variable [Std.TransOrd α] [Std.LawfulEqOrd α]

def insert (s : OrderedSet α) (a : α) : OrderedSet α :=
  ⟨insertIncreasing a s.toList, insertIncreasing_increasing a s.increasing⟩

/-- The members of a list, whatever their order and repetition there. -/
def ofList (l : List α) : OrderedSet α := l.foldl insert empty

theorem mem_insert {s : OrderedSet α} {a x : α} : x ∈ s.insert a ↔ x = a ∨ x ∈ s :=
  mem_insertIncreasing

private theorem mem_foldl_insert {l : List α} {s : OrderedSet α} {x : α} :
    x ∈ l.foldl insert s ↔ x ∈ l ∨ x ∈ s := by
  induction l generalizing s with
  | nil => simp
  | cons a l ih => simp [ih, mem_insert, or_assoc, or_left_comm]

theorem mem_ofList {l : List α} {x : α} : x ∈ ofList l ↔ x ∈ l := by
  simp [ofList, mem_foldl_insert, show ¬ x ∈ (empty : OrderedSet α) from fun h => by cases h]

omit [Std.LawfulEqOrd α] in
theorem eq_of_mem_iff {s t : OrderedSet α} (h : ∀ x, x ∈ s ↔ x ∈ t) : s = t :=
  ext (eq_of_increasing id s.increasing t.increasing h)

end OrderedSet
end ShardQuery
