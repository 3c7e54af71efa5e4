import ShardQuery.Proofs.Query.LiteralPlaces

/-!
# Quoted literals

A string literal stands between apostrophes, with a backslash in front of every backslash and
apostrophe in it. This is the same as replacing backslashes first and apostrophes after them. Reading
up to the first apostrophe that no backslash takes gives the string back and leaves all that follows,
wherever in an expression the literal stands.
-/

namespace ShardQuery.Literal

/-- A text with another text in place of every occurrence of a character. -/
def replace (old : Char) (new cs : List Char) : List Char :=
  cs.flatMap fun c => if c = old then new else [c]

/-- Reads up to the first apostrophe that is not escaped; a backslash stands for what follows it. -/
def readBody? : List Char → Option (List Char × List Char)
  | [] => none
  | '\'' :: rest => some ([], rest)
  | ['\\'] => none
  | '\\' :: c :: rest => (readBody? rest).map fun r => (c :: r.1, r.2)
  | c :: rest => (readBody? rest).map fun r => (c :: r.1, r.2)

def readQuoted? (s : String) : Option (String × String) :=
  match s.toList with
  | '\'' :: rest => (readBody? rest).map fun r => (String.ofList r.1, String.ofList r.2)
  | _ => none

theorem flatMap_escapeChar (cs : List Char) :
    cs.flatMap escapeChar = replace '\'' ['\\', '\''] (replace '\\' ['\\', '\\'] cs) := by
  rw [replace, replace, List.flatMap_assoc]
  refine List.flatMap_congr fun c _ => ?_
  unfold escapeChar
  by_cases hbackslash : c = '\\'
  · subst hbackslash
    decide
  · by_cases hquote : c = '\''
    · subst hquote
      decide
    · simp [hbackslash, hquote]

theorem readBody?_escapeChar (c : Char) (rest : List Char) :
    readBody? (escapeChar c ++ rest) = (readBody? rest).map fun r => (c :: r.1, r.2) := by
  unfold escapeChar
  split
  · rw [List.cons_append, List.singleton_append, readBody?]
  · next h =>
    obtain ⟨hbackslash, hquote⟩ := not_or.1 h
    rw [List.singleton_append, readBody?]
    all_goals simp [hbackslash, hquote]

theorem readBody?_flatMap (cs rest : List Char) :
    readBody? (cs.flatMap escapeChar ++ '\'' :: rest) = some (cs, rest) := by
  induction cs with
  | nil => rfl
  | cons c cs ih =>
    rw [List.flatMap_cons, List.append_assoc, readBody?_escapeChar, ih, Option.map_some]

/-- A rendered string is read back, and what follows it is left. -/
theorem readQuoted?_render (s rest : String) :
    readQuoted? ((string s).render ++ rest) = some (s, rest) := by
  have htext : ((string s).render ++ rest).toList =
      '\'' :: (s.toList.flatMap escapeChar ++ '\'' :: rest.toList) := by
    simp [render, quoteChars]
  rw [readQuoted?, htext]
  simp [readBody?_flatMap]

theorem eq_of_render_append_eq {s t rest rest' : String}
    (h : (string s).render ++ rest = (string t).render ++ rest') : s = t ∧ rest = rest' := by
  have hread := readQuoted?_render s rest
  rw [h, readQuoted?_render] at hread
  simpa using hread.symm

theorem render_string (s : String) :
    (string s).render = String.ofList
      ('\'' :: (replace '\'' ['\\', '\''] (replace '\\' ['\\', '\\'] s.toList) ++ ['\''])) := by
  rw [render, quoteChars, flatMap_escapeChar]

theorem render_fill_string (p : Expression.Place) (s : String) :
    (p.fill (.string s)).render =
      String.ofList p.left ++ ((string s).render ++ String.ofList p.right) := by
  rw [← String.toList_inj, p.toList_render_fill]
  simp

/-- A string literal is its string with backslashes doubled first and a backslash put before every
apostrophe then, between apostrophes. Whatever follows, it is read back up to its closing apostrophe
and no further, so its text tells the string from all others. Every string literal of an expression
stands in the text of the expression in this way. -/
theorem render_string_delimited :
    (∀ s, (string s).render = String.ofList
      ('\'' :: (replace '\'' ['\\', '\''] (replace '\\' ['\\', '\\'] s.toList) ++ ['\'']))) ∧
    (∀ s rest, readQuoted? ((string s).render ++ rest) = some (s, rest)) ∧
    (∀ s t rest rest', (string s).render ++ rest = (string t).render ++ rest' →
      s = t ∧ rest = rest') ∧
    ∀ (e : Expression) (s : String), .string s ∈ e.literals →
      ∃ (p : Expression.Place) (before after : String), p.fill (.string s) = e ∧
        ∀ t, (p.fill (.string t)).render = before ++ ((string t).render ++ after) ∧
          ((p.fill (.string t)).render = e.render → t = s) := by
  refine ⟨render_string, readQuoted?_render, fun _ _ _ _ => eq_of_render_append_eq, ?_⟩
  intro e s hs
  obtain ⟨p, rfl⟩ := Expression.exists_fill_eq hs
  refine ⟨p, String.ofList p.left, String.ofList p.right, rfl, fun t => ?_⟩
  refine ⟨render_fill_string p t, fun h => ?_⟩
  rw [render_fill_string, render_fill_string, String.append_right_inj] at h
  exact (eq_of_render_append_eq h).1

/-- A backslash at the end does not take the closing apostrophe. -/
theorem render_string_delimited_argument :
    let e : Expression := .function "filter" "includeRegex" [.field "NAME", .value (.string "it's\\")]
    .string "it's\\" ∈ e.literals ∧ e.render = "filter:includeRegex(NAME, 'it\\'s\\\\')" ∧
      readQuoted? "'it\\'s\\\\')" = some ("it's\\", ")") ∧
      ∃ p : Expression.Place, p.fill (.string "it's\\") = e := by
  intro e
  have hmem : .string "it's\\" ∈ e.literals := by simp [e, Expression.literals]
  obtain ⟨-, hread, -, hplaces⟩ := render_string_delimited
  obtain ⟨p, _, _, hfill, -⟩ := hplaces e _ hmem
  have hrender : (string "it's\\").render = "'it\\'s\\\\'" := by decide
  have hrest := hread "it's\\" ")"
  rw [hrender] at hrest
  exact ⟨hmem, by decide +kernel, hrest, p, hfill⟩

end ShardQuery.Literal
