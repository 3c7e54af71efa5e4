/-! # Separated fields

A text cut at every occurrence of a separator, and fields put together again. Cutting gives at least
one field, and joining undoes it. Joining is undone by cutting when no field holds the separator. -/

namespace ShardQuery.Text

/-- The stretches between separators, one more than there are separators. -/
def split (sep : Char) : List Char → List (List Char)
  | [] => [[]]
  | c :: cs =>
    if c = sep then [] :: split sep cs
    else
      match split sep cs with
      | [] => [[c]]
      | field :: fields => (c :: field) :: fields

def join (sep : List Char) : List (List Char) → List Char
  | [] => []
  | [field] => field
  | field :: fields => field ++ sep ++ join sep fields

theorem split_ne_nil (sep : Char) (cs : List Char) : split sep cs ≠ [] := by
  cases cs with
  | nil => simp [split]
  | cons c cs =>
    unfold split
    split
    · simp
    · split <;> simp

theorem join_split (sep : Char) (cs : List Char) : join [sep] (split sep cs) = cs := by
  induction cs with
  | nil => rfl
  | cons c cs ih =>
    unfold split
    split
    · next h =>
      subst h
      cases hs : split c cs with
      | nil => exact absurd hs (split_ne_nil c cs)
      | cons field fields => rw [hs] at ih; simp [join, ih]
    · cases hs : split sep cs with
      | nil => exact absurd hs (split_ne_nil sep cs)
      | cons field fields =>
        rw [hs] at ih
        cases fields with
        | nil => simpa [join] using ih
        | cons next rest => simpa [join] using ih

theorem split_of_not_mem {sep : Char} {cs : List Char} (h : sep ∉ cs) : split sep cs = [cs] := by
  induction cs with
  | nil => rfl
  | cons c cs ih =>
    have hc : c ≠ sep := fun e => h (by simp [e])
    have hcs : sep ∉ cs := fun hm => h (by simp [hm])
    rw [split, if_neg hc, ih hcs]

theorem split_append_cons {sep : Char} {field : List Char} (h : sep ∉ field) (cs : List Char) :
    split sep (field ++ sep :: cs) = field :: split sep cs := by
  induction field with
  | nil => simp [split]
  | cons c field ih =>
    have hc : c ≠ sep := fun e => h (by simp [e])
    have hfield : sep ∉ field := fun hm => h (by simp [hm])
    rw [List.cons_append, split, if_neg hc, ih hfield]

theorem split_join {sep : Char} {fields : List (List Char)} (hne : fields ≠ [])
    (h : ∀ field ∈ fields, sep ∉ field) : split sep (join [sep] fields) = fields := by
  induction fields with
  | nil => exact absurd rfl hne
  | cons field fields ih =>
    have hfield : sep ∉ field := h field (by simp)
    cases fields with
    | nil => exact split_of_not_mem hfield
    | cons next rest =>
      rw [join, List.append_assoc, List.singleton_append, split_append_cons hfield,
        ih (by simp) fun f hf => h f (by simp [hf])]
      simp

theorem not_mem_of_mem_split {sep : Char} {cs field : List Char} (h : field ∈ split sep cs) :
    sep ∉ field := by
  induction cs generalizing field with
  | nil => simp_all [split]
  | cons c cs ih =>
    unfold split at h
    split at h
    · rcases List.mem_cons.1 h with rfl | h
      · simp
      · exact ih h
    · next hc =>
      cases hs : split sep cs with
      | nil => exact absurd hs (split_ne_nil sep cs)
      | cons first rest =>
        rw [hs] at h ih
        rcases List.mem_cons.1 h with rfl | h
        · have hfirst : sep ∉ first := ih (by simp)
          simp [hfirst, Ne.symm hc]
        · exact ih (by simp [h])

theorem join_cons_of_ne_nil (sep field : List Char) {rest : List (List Char)} (h : rest ≠ []) :
    join sep (field :: rest) = field ++ sep ++ join sep rest := by
  cases rest with
  | nil => exact absurd rfl h
  | cons next rest => rfl

theorem join_append (sep : List Char) {fields rest : List (List Char)} (hfields : fields ≠ [])
    (hrest : rest ≠ []) : join sep (fields ++ rest) = join sep fields ++ sep ++ join sep rest := by
  induction fields with
  | nil => exact absurd rfl hfields
  | cons field fields ih =>
    cases fields with
    | nil => exact join_cons_of_ne_nil sep field hrest
    | cons next fields =>
      rw [List.cons_append, join_cons_of_ne_nil sep field (by simp), ih (by simp),
        join_cons_of_ne_nil sep field (by simp)]
      simp only [List.append_assoc]

theorem join_cons (sep field : List Char) (rest : List (List Char)) :
    join sep (field :: rest) = field ++ rest.flatMap (sep ++ ·) := by
  induction rest generalizing field with
  | nil => simp [join]
  | cons next rest ih =>
    rw [join_cons_of_ne_nil sep field (by simp), ih, List.flatMap_cons, List.append_assoc,
      List.append_assoc]

/-- Around each field stand the fields before it, each with a separator behind it, and the fields after
it, each with a separator in front. -/
theorem join_append_cons (sep : List Char) (fields : List (List Char)) (field : List Char)
    (rest : List (List Char)) :
    join sep (fields ++ field :: rest) =
      fields.flatMap (· ++ sep) ++ field ++ rest.flatMap (sep ++ ·) := by
  induction fields with
  | nil => exact join_cons sep field rest
  | cons first fields ih =>
    rw [List.cons_append, join_cons_of_ne_nil sep first (by simp), ih, List.flatMap_cons]
    simp

theorem mem_join {sep : List Char} {fields : List (List Char)} {c : Char} :
    c ∈ join sep fields ↔ (∃ field ∈ fields, c ∈ field) ∨ c ∈ sep ∧ 2 ≤ fields.length := by
  induction fields with
  | nil => simp [join]
  | cons field fields ih =>
    cases fields with
    | nil => simp [join]
    | cons next rest =>
      have hjoin : join sep (field :: next :: rest) = field ++ sep ++ join sep (next :: rest) := rfl
      rw [hjoin, List.mem_append, List.mem_append, ih]
      simp only [List.mem_cons, exists_eq_or_imp, List.length_cons]
      grind

def fieldsOf (sep : Char) (s : String) : List String := (split sep s.toList).map String.ofList

def dropReturn (cs : List Char) : List Char := if cs.getLast? = some '\r' then cs.dropLast else cs

def linesOf (s : String) : List String :=
  (split '\n' s.toList).map fun line => String.ofList (dropReturn line)

def joined (sep : String) (fields : List String) : String :=
  String.ofList (join sep.toList (fields.map String.toList))

theorem joined_fieldsOf (sep : Char) (s : String) :
    joined (.singleton sep) (fieldsOf sep s) = s := by
  simp [joined, fieldsOf, Function.comp_def, join_split]

theorem fieldsOf_joined {sep : Char} {fields : List String} (hne : fields ≠ [])
    (h : ∀ field ∈ fields, sep ∉ field.toList) :
    fieldsOf sep (joined (.singleton sep) fields) = fields := by
  have hsplit : split sep (join [sep] (fields.map String.toList)) = fields.map String.toList :=
    split_join (by simpa using hne) (by simpa using h)
  simp [joined, fieldsOf, hsplit, Function.comp_def]

theorem mem_joined {sep c : Char} {fields : List String} :
    c ∈ (joined (.singleton sep) fields).toList ↔
      (∃ field ∈ fields, c ∈ field.toList) ∨ c = sep ∧ 2 ≤ fields.length := by
  have hfields : (∃ field ∈ fields.map String.toList, c ∈ field) ↔
      ∃ field ∈ fields, c ∈ field.toList := by grind
  rw [joined, String.toList_ofList, String.toList_singleton, mem_join, hfields, List.mem_singleton,
    List.length_map]

theorem not_mem_of_mem_fieldsOf {sep : Char} {s field : String} (h : field ∈ fieldsOf sep s) :
    sep ∉ field.toList := by
  obtain ⟨cs, hcs, rfl⟩ := List.mem_map.1 h
  rw [String.toList_ofList]
  exact not_mem_of_mem_split hcs

end ShardQuery.Text
