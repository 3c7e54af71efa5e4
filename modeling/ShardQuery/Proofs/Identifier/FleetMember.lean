import ShardQuery.Identifier.Fleet

/-!
# Work on one member of a fleet

Work on a member takes its source and cache out of the fleet and puts what becomes of them back in
their places; the other sources and caches stay as they are.
-/

namespace ShardQuery

namespace Fleet

variable {σ : Type}

def settle (f : Fleet σ) (i : Nat) (m : Member σ) : Fleet σ :=
  { sources := f.sources.set i (m.1, (f.source i).2)
    caches := match (f.source i).2 with
      | none => f.caches
      | some k => f.caches.set k m.2 }

theorem source_settle {f : Fleet σ} {i : Nat} (hi : i < f.sources.length) (m : Member σ)
    (j : Nat) : (f.settle i m).source j = if j = i then (m.1, (f.source i).2) else f.source j := by
  by_cases hij : i = j
  · subst hij
    simp [settle, source, List.getD_eq_getElem?_getD, hi]
  · have hji : ¬ j = i := fun h => hij h.symm
    simp [settle, source, List.getD_eq_getElem?_getD, List.getElem?_set_ne hij, hji]

variable [Inhabited σ]

def member (f : Fleet σ) (i : Nat) : Member σ :=
  ((f.source i).1, ((f.source i).2.map f.cache).getD default)

theorem act_eq {α : Type} (f : Fleet σ) (i : Nat) (work : Member σ → α × Member σ) :
    f.act i work = ((work (f.member i)).1, f.settle i (work (f.member i)).2) := by
  unfold act member settle
  rcases f.source i with ⟨s, _ | k⟩ <;> rfl

private theorem set_getD_self {α : Type} (xs : List α) (i : Nat) (x : α) :
    xs.set i (xs.getD i x) = xs := by
  by_cases hi : i < xs.length
  · rw [List.getD_eq_getElem?_getD, List.getElem?_eq_getElem hi]
    exact List.set_getElem_self hi
  · exact List.set_eq_of_length_le (Nat.not_lt.1 hi)

theorem settle_member (f : Fleet σ) (i : Nat) : f.settle i (f.member i) = f := by
  have hsources : f.sources.set i (f.source i) = f.sources := set_getD_self _ _ _
  have hcaches (k : Nat) : f.caches.set k (f.cache k) = f.caches := set_getD_self _ _ _
  unfold settle member
  rcases hsource : f.source i with ⟨s, _ | k⟩
  · rw [hsource] at hsources
    simp only [hsources]
  · rw [hsource] at hsources
    simp only [hsources, Option.map_some, Option.getD_some, hcaches]

end Fleet
end ShardQuery
