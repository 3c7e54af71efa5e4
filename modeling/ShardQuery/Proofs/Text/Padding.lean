import Mathlib.Data.List.TakeWhile
import ShardQuery.Text.Blank
import ShardQuery.Text.Fields

/-!
# Padding

A text is a core with blank padding on both sides, where the core begins and ends with characters
that are not blank. Trimming gives the core of every text, however it is padded. Fields cut from a
padded text have the same cores as those cut from its core, as long as the separator is not blank.
-/

namespace ShardQuery.Text

def IsPadding (cs : List Char) : Prop := ∀ c ∈ cs, isBlank c = true

/-- A text that is empty or begins and ends with characters that are not blank. -/
def IsCore (cs : List Char) : Prop :=
  (∀ c ∈ cs.head?, isBlank c = false) ∧ ∀ c ∈ cs.getLast?, isBlank c = false

/-- A text is a core between paddings. -/
def Pads (cs core : List Char) : Prop :=
  IsCore core ∧ ∃ before after, IsPadding before ∧ IsPadding after ∧ cs = before ++ core ++ after

namespace IsPadding

variable {padding : List Char}

theorem append {before after : List Char} (hbefore : IsPadding before) (hafter : IsPadding after) :
    IsPadding (before ++ after) :=
  fun c hc => (List.mem_append.1 hc).elim (hbefore c) (hafter c)

theorem reverse (h : IsPadding padding) : IsPadding padding.reverse :=
  fun c hc => h c (List.mem_reverse.1 hc)

theorem not_mem (h : IsPadding padding) {c : Char} (hc : isBlank c = false) : c ∉ padding := by
  intro hmem
  rw [h c hmem] at hc
  cases hc

end IsPadding

theorem trimStart_append {before : List Char} (h : IsPadding before) (cs : List Char) :
    trimStart (before ++ cs) = trimStart cs := List.dropWhile_append_of_pos h

theorem trimStart_eq_self {cs : List Char} (h : ∀ c ∈ cs.head?, isBlank c = false) :
    trimStart cs = cs := by
  cases cs with
  | nil => rfl
  | cons c cs => exact List.dropWhile_cons_of_neg (by simp [h c rfl])

theorem exists_padding_before (cs : List Char) :
    ∃ before, IsPadding before ∧ cs = before ++ trimStart cs ∧
      ∀ c ∈ (trimStart cs).head?, isBlank c = false := by
  refine ⟨cs.takeWhile isBlank, fun c hc => List.mem_takeWhile_imp hc,
    List.takeWhile_append_dropWhile.symm, fun c hc => ?_⟩
  have hhead := List.head?_dropWhile_not isBlank cs
  rw [trimStart] at hc
  rwa [hc] at hhead

theorem pads_trim (cs : List Char) : Pads cs (trim cs) := by
  obtain ⟨before, hbefore, hcs, hhead⟩ := exists_padding_before cs
  obtain ⟨after, hafter, hrest, hlast⟩ := exists_padding_before (trimStart cs).reverse
  have hsplit : trimStart cs = trim cs ++ after.reverse := by
    rw [← List.reverse_inj, hrest, trim, List.reverse_append, List.reverse_reverse,
      List.reverse_reverse]
  refine ⟨⟨fun c hc => ?_, fun c hc => ?_⟩, before, after.reverse, hbefore, hafter.reverse, ?_⟩
  · refine hhead c ?_
    rw [hsplit, List.head?_append, Option.mem_def.1 hc]
    rfl
  · refine hlast c ?_
    rwa [trim, List.getLast?_reverse] at hc
  · rw [List.append_assoc, ← hsplit, ← hcs]

theorem trim_of_pads {cs core : List Char} (h : Pads cs core) : trim cs = core := by
  obtain ⟨⟨hhead, hlast⟩, before, after, hbefore, hafter, rfl⟩ := h
  cases core with
  | nil =>
    have hall : trimStart (before ++ after) = [] :=
      List.dropWhile_eq_nil_iff.2 (hbefore.append hafter)
    rw [List.append_nil, trim, hall]
    rfl
  | cons c core =>
    have hstart : trimStart (before ++ (c :: core) ++ after) = (c :: core) ++ after := by
      rw [List.append_assoc, trimStart_append hbefore]
      exact trimStart_eq_self fun x hx => hhead x hx
    have hback : ∀ x ∈ (c :: core).reverse.head?, isBlank x = false := by
      rw [List.head?_reverse]
      exact hlast
    rw [trim, hstart, List.reverse_append, trimStart_append hafter.reverse, trimStart_eq_self hback,
      List.reverse_reverse]

/-- Trimming gives the core, whatever the padding. -/
theorem pads_iff {cs core : List Char} : Pads cs core ↔ trim cs = core :=
  ⟨trim_of_pads, fun h => h ▸ pads_trim cs⟩

theorem isCore_of_forall {cs : List Char} (h : ∀ c ∈ cs, isBlank c = false) : IsCore cs :=
  ⟨fun c hc => h c (List.mem_of_mem_head? hc), fun c hc => h c (List.mem_of_mem_getLast? hc)⟩

theorem IsCore.pads {core : List Char} (h : IsCore core) : Pads core core :=
  ⟨h, [], [], by simp [IsPadding], by simp [IsPadding], by simp⟩

theorem trim_append_left {before : List Char} (h : IsPadding before) (cs : List Char) :
    trim (before ++ cs) = trim cs := by
  rw [trim, trimStart_append h, ← trim]

theorem trim_append_right {after : List Char} (h : IsPadding after) (cs : List Char) :
    trim (cs ++ after) = trim cs := by
  obtain ⟨hcore, before, inner, hbefore, hinner, hcs⟩ := pads_trim cs
  refine trim_of_pads ⟨hcore, before, inner ++ after, hbefore, hinner.append h, ?_⟩
  rw [← List.append_assoc, ← hcs]

theorem mem_trim_iff {c : Char} (hc : isBlank c = false) {cs : List Char} :
    c ∈ trim cs ↔ c ∈ cs := by
  obtain ⟨-, before, after, hbefore, hafter, hcs⟩ := pads_trim cs
  have hmem : c ∈ before ++ trim cs ++ after ↔ c ∈ trim cs := by
    simp [hbefore.not_mem hc, hafter.not_mem hc]
  rw [← hmem, ← hcs]

theorem trimmed_eq_iff {s t : String} : trimmed s = t ↔ Pads s.toList t.toList := by
  rw [pads_iff, ← String.toList_inj, trimmed, String.toList_ofList]

theorem mem_trimmed_iff {c : Char} (hc : isBlank c = false) {s : String} :
    c ∈ (trimmed s).toList ↔ c ∈ s.toList := by
  rw [trimmed, String.toList_ofList, mem_trim_iff hc]

/-! ## Fields of a padded text -/

theorem split_append_left {sep : Char} {before : List Char} (h : sep ∉ before) (cs : List Char) :
    ∃ first rest, split sep cs = first :: rest ∧
      split sep (before ++ cs) = (before ++ first) :: rest := by
  induction before with
  | nil =>
    obtain ⟨first, rest, hcs⟩ := List.exists_cons_of_ne_nil (split_ne_nil sep cs)
    exact ⟨first, rest, hcs, hcs⟩
  | cons c before ih =>
    obtain ⟨hc, hbefore⟩ := not_or.1 (mt List.mem_cons.2 h)
    obtain ⟨first, rest, hcs, happend⟩ := ih hbefore
    refine ⟨first, rest, hcs, ?_⟩
    rw [List.cons_append, split, if_neg (Ne.symm hc), happend]
    rfl

theorem split_append_right {sep : Char} {after : List Char} (h : sep ∉ after) (cs : List Char) :
    ∃ init last, split sep cs = init ++ [last] ∧
      split sep (cs ++ after) = init ++ [last ++ after] := by
  induction cs with
  | nil => exact ⟨[], [], rfl, split_of_not_mem h⟩
  | cons c cs ih =>
    obtain ⟨init, last, hcs, happend⟩ := ih
    rw [List.cons_append, split, split, hcs, happend]
    by_cases hc : c = sep
    · rw [if_pos hc, if_pos hc]
      exact ⟨[] :: init, last, rfl, rfl⟩
    · rw [if_neg hc, if_neg hc]
      -- the character joins the first field, which is the last one too if there is no other
      cases init with
      | nil => exact ⟨[], c :: last, rfl, rfl⟩
      | cons field fields => exact ⟨(c :: field) :: fields, last, rfl, rfl⟩

/-- Padding around a text does not change the cores of its fields. -/
theorem map_trim_split_trim {sep : Char} (hsep : isBlank sep = false) (cs : List Char) :
    (split sep (trim cs)).map trim = (split sep cs).map trim := by
  obtain ⟨-, before, after, hbefore, hafter, hcs⟩ := pads_trim cs
  obtain ⟨init, last, hcore, hright⟩ := split_append_right (hafter.not_mem hsep) (trim cs)
  obtain ⟨first, rest, hfirst, hleft⟩ :=
    split_append_left (hbefore.not_mem hsep) (trim cs ++ after)
  calc (split sep (trim cs)).map trim
      = (split sep (trim cs ++ after)).map trim := by simp [hcore, hright, trim_append_right hafter]
    _ = (split sep (before ++ (trim cs ++ after))).map trim := by
        simp [hfirst, hleft, trim_append_left hbefore]
    _ = (split sep cs).map trim := by rw [← List.append_assoc, ← hcs]

theorem map_trimmed_fieldsOf_trimmed {sep : Char} (hsep : isBlank sep = false) (s : String) :
    (fieldsOf sep (trimmed s)).map trimmed = (fieldsOf sep s).map trimmed := by
  have hfields (cs : List Char) : (fieldsOf sep (String.ofList cs)).map trimmed =
      ((split sep cs).map trim).map String.ofList := by
    simp [fieldsOf, trimmed]
  rw [trimmed, hfields, map_trim_split_trim hsep, ← hfields, String.ofList_toList]

end ShardQuery.Text
