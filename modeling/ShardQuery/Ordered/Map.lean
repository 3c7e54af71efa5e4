/-! # Ordered maps

A finite map is the list of its pairs in strictly increasing order of keys. `OrderedMap.insert`
replaces the value of a key that is present already; `OrderedMap.find?` reads the last value written. -/

namespace ShardQuery

variable {κ ν : Type} [Ord κ]

def writeIncreasing (k : κ) (v : ν) : List (κ × ν) → List (κ × ν)
  | [] => [(k, v)]
  | p :: ps =>
    match compare k p.1 with
    | .lt => (k, v) :: p :: ps
    | .eq => (k, v) :: ps
    | .gt => p :: writeIncreasing k v ps

def KeysIncrease (l : List (κ × ν)) : Prop := l.Pairwise (fun p q => compare p.1 q.1 = .lt)

theorem mem_keys_writeIncreasing [Std.LawfulEqOrd κ] {k x : κ} {v : ν} {l : List (κ × ν)} :
    x ∈ (writeIncreasing k v l).map Prod.fst ↔ x = k ∨ x ∈ l.map Prod.fst := by
  induction l with
  | nil => simp [writeIncreasing]
  | cons p ps ih =>
    unfold writeIncreasing
    split
    · simp
    · next h =>
      have hk : k = p.1 := Std.LawfulEqOrd.eq_of_compare h
      simp [hk]
    · rw [List.map_cons, List.mem_cons, ih, List.map_cons, List.mem_cons, or_left_comm]

theorem keysIncrease_writeIncreasing [Std.TransOrd κ] [Std.LawfulEqOrd κ] (k : κ) (v : ν)
    {l : List (κ × ν)} (h : KeysIncrease l) : KeysIncrease (writeIncreasing k v l) := by
  induction l with
  | nil => simp [writeIncreasing, KeysIncrease]
  | cons p ps ih =>
    obtain ⟨hp, hps⟩ := List.pairwise_cons.1 h
    unfold writeIncreasing
    split
    · next hk =>
      refine List.pairwise_cons.2 ⟨fun q hq => ?_, h⟩
      rcases List.mem_cons.1 hq with rfl | hq
      · exact hk
      · exact Std.TransCmp.lt_trans hk (hp q hq)
    · next hk =>
      have hk : k = p.1 := Std.LawfulEqOrd.eq_of_compare hk
      exact List.pairwise_cons.2 ⟨fun q hq => hk ▸ hp q hq, hps⟩
    · next hk =>
      refine List.pairwise_cons.2 ⟨fun q hq => ?_, ih hps⟩
      rcases mem_keys_writeIncreasing.1 (List.mem_map_of_mem hq) with hq | hq
      · rw [hq]
        exact Std.OrientedCmp.lt_of_gt hk
      · obtain ⟨r, hr, hrq⟩ := List.mem_map.1 hq
        rw [← hrq]
        exact hp r hr

theorem writeIncreasing_writeIncreasing [Std.ReflOrd κ] (k : κ) (v w : ν) (l : List (κ × ν)) :
    writeIncreasing k w (writeIncreasing k v l) = writeIncreasing k w l := by
  induction l with
  | nil => simp [writeIncreasing]
  | cons p ps ih =>
    cases hk : compare k p.1 <;> simp [writeIncreasing, hk, ih]

/-- A finite map, held as its pairs in increasing order of keys. -/
structure OrderedMap (κ ν : Type) [Ord κ] where
  toList : List (κ × ν)
  increasing : KeysIncrease toList

namespace OrderedMap

theorem ext {m n : OrderedMap κ ν} (h : m.toList = n.toList) : m = n := by
  cases m; cases n; cases h; rfl

instance [DecidableEq κ] [DecidableEq ν] : DecidableEq (OrderedMap κ ν) := fun m n =>
  if h : m.toList = n.toList then .isTrue (ext h) else .isFalse fun e => h (e ▸ rfl)

def empty : OrderedMap κ ν := ⟨[], .nil⟩

instance : EmptyCollection (OrderedMap κ ν) := ⟨empty⟩
instance : Inhabited (OrderedMap κ ν) := ⟨empty⟩

def find? (m : OrderedMap κ ν) (k : κ) : Option ν :=
  (m.toList.find? fun p => compare k p.1 == .eq).map Prod.snd

def keys (m : OrderedMap κ ν) : List κ := m.toList.map Prod.fst

def size (m : OrderedMap κ ν) : Nat := m.toList.length

def isEmpty (m : OrderedMap κ ν) : Bool := m.toList.isEmpty

variable [Std.TransOrd κ] [Std.LawfulEqOrd κ]

def insert (m : OrderedMap κ ν) (k : κ) (v : ν) : OrderedMap κ ν :=
  ⟨writeIncreasing k v m.toList, keysIncrease_writeIncreasing k v m.increasing⟩

theorem insert_insert (m : OrderedMap κ ν) (k : κ) (v w : ν) :
    (m.insert k v).insert k w = m.insert k w :=
  ext (writeIncreasing_writeIncreasing k v w m.toList)

/-- The map that a list of writes leaves: the last value of each key. -/
def ofList (l : List (κ × ν)) : OrderedMap κ ν := l.foldl (fun m p => m.insert p.1 p.2) empty

omit [Std.TransOrd κ] in
private theorem find_writeIncreasing [DecidableEq κ] (k x : κ) (v : ν) {l : List (κ × ν)}
    (h : KeysIncrease l) :
    (writeIncreasing k v l).find? (fun p => compare x p.1 == .eq) =
      if x = k then some (k, v) else l.find? (fun p => compare x p.1 == .eq) := by
  induction l with
  | nil => by_cases hx : x = k <;> simp [writeIncreasing, hx]
  | cons p ps ih =>
    obtain ⟨_, hps⟩ := List.pairwise_cons.1 h
    unfold writeIncreasing
    split
    · by_cases hx : x = k <;> simp [hx]
    · next hk =>
      have hk : k = p.1 := Std.LawfulEqOrd.eq_of_compare hk
      by_cases hx : x = k <;> simp [← hk, hx]
    · next hk =>
      by_cases hxp : x = p.1
      · have hx : ¬ x = k := fun e => by rw [← e, hxp] at hk; simp at hk
        simp [← hxp, hx]
      · simp [hxp, ih hps]

theorem find?_insert [DecidableEq κ] (m : OrderedMap κ ν) (k x : κ) (v : ν) :
    (m.insert k v).find? x = if x = k then some v else m.find? x := by
  simp only [find?, insert, find_writeIncreasing k x v m.increasing]
  split <;> rfl

omit [Std.TransOrd κ] in
theorem mem_of_find? {m : OrderedMap κ ν} {k : κ} {v : ν} (h : m.find? k = some v) :
    (k, v) ∈ m.toList := by
  obtain ⟨p, hp, hv⟩ := Option.map_eq_some_iff.1 h
  have hk : k = p.1 := Std.LawfulEqOrd.eq_of_compare (by simpa using List.find?_some hp)
  rw [hk, ← hv]
  exact List.mem_of_find?_eq_some hp

private theorem find_eq_some_of_mem {k : κ} {v : ν} {l : List (κ × ν)} (h : KeysIncrease l)
    (hmem : (k, v) ∈ l) : l.find? (fun p => compare k p.1 == .eq) = some (k, v) := by
  induction l with
  | nil => exact absurd hmem List.not_mem_nil
  | cons p ps ih =>
    obtain ⟨hp, hps⟩ := List.pairwise_cons.1 h
    rcases List.mem_cons.1 hmem with rfl | hmem
    · simp
    · have hgt : compare k p.1 = .gt := Std.OrientedCmp.gt_of_lt (hp _ hmem)
      rw [List.find?_cons_of_neg (by simp [hgt]), ih hps hmem]

theorem find?_eq_some_iff {m : OrderedMap κ ν} {k : κ} {v : ν} :
    m.find? k = some v ↔ (k, v) ∈ m.toList := by
  refine ⟨mem_of_find?, fun hmem => ?_⟩
  rw [find?, find_eq_some_of_mem m.increasing hmem, Option.map_some]

theorem mem_keys_iff {m : OrderedMap κ ν} {k : κ} : k ∈ m.keys ↔ ∃ v, m.find? k = some v := by
  simp [keys, find?_eq_some_iff]

private theorem find?_foldl_insert [DecidableEq κ] [BEq κ] [LawfulBEq κ] (l : List (κ × ν))
    (m : OrderedMap κ ν) (k : κ) :
    (l.foldl (fun m p => m.insert p.1 p.2) m).find? k = (l.reverse.lookup k).or (m.find? k) := by
  induction l generalizing m with
  | nil => rfl
  | cons p l ih =>
    obtain ⟨k', v⟩ := p
    rw [List.foldl_cons, ih, find?_insert, List.reverse_cons, List.lookup_append, Option.or_assoc]
    by_cases hk : k = k'
    · simp [hk]
    · simp [List.lookup_cons, hk, beq_false_of_ne hk]

theorem find?_ofList [DecidableEq κ] [BEq κ] [LawfulBEq κ] (l : List (κ × ν)) (k : κ) :
    (ofList l).find? k = l.reverse.lookup k := by
  rw [ofList, find?_foldl_insert]
  exact Option.or_none

theorem eq_of_find?_eq {m n : OrderedMap κ ν} (h : ∀ k, m.find? k = n.find? k) : m = n := by
  have hnodup (m : OrderedMap κ ν) : m.toList.Nodup := by
    refine m.increasing.imp ?_
    rintro p q hlt rfl
    simp at hlt
  have hperm : m.toList.Perm n.toList := by
    refine (List.perm_ext_iff_of_nodup (hnodup m) (hnodup n)).2 fun p => ?_
    rw [← find?_eq_some_iff, ← find?_eq_some_iff, h]
  refine ext (hperm.eq_of_pairwise ?_ m.increasing n.increasing)
  intro p q _ _ hpq hqp
  exact absurd hqp (Std.OrientedCmp.not_lt_of_lt hpq)

theorem insert_eq_self [DecidableEq κ] {m : OrderedMap κ ν} {k : κ} {v : ν}
    (h : m.find? k = some v) : m.insert k v = m := by
  refine eq_of_find?_eq fun x => ?_
  rw [find?_insert]
  split
  · next hx => rw [hx, h]
  · rfl

end OrderedMap
end ShardQuery
