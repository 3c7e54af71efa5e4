import Mathlib.Data.List.Forall2
import ShardQuery.Proofs.Scan.WriteLog
import ShardQuery.Proofs.Text.Padding

/-!
# Visibilities as formulas

A visibility spells a formula over labels, whatever the padding of its operands, and every text
spells one. Authorizations see what they satisfy: a scan returns the entries whose formula holds of
its authorizations, more labels never return less, and entries that are not returned for want of a
label do not matter to a scan.
-/

namespace ShardQuery

namespace Visibility

inductive Connective where
  | all | any
deriving DecidableEq, Repr, Inhabited

namespace Connective

def sign : Connective → Char
  | all => '&'
  | any => '|'

theorem sign_injective {c d : Connective} (h : c.sign = d.sign) : c = d := by
  cases c <;> cases d <;> first | rfl | cases h

theorem isBlank_sign (c : Connective) : Text.isBlank c.sign = false := by cases c <;> rfl

def Holds (a : Authorizations) (labels : List String) : Connective → Prop
  | all => ∀ l ∈ labels, l ∈ a
  | any => ∃ l ∈ labels, l ∈ a

end Connective

/-- What a visibility asks of the labels that are held. -/
inductive Formula where
  | always
  | label (l : String)
  | join (c : Connective) (labels : List String)
  | never
deriving DecidableEq, Repr, Inhabited

def Formula.Holds (a : Authorizations) : Formula → Prop
  | always => True
  | label l => l ∈ a
  | join c labels => c.Holds a labels
  | never => False

theorem Formula.Holds.mono {a b : Authorizations} (hsub : ∀ l ∈ a, l ∈ b) {f : Formula}
    (h : f.Holds a) : f.Holds b := by
  cases f with
  | always => trivial
  | label l => exact hsub l h
  | join c labels =>
    cases c with
    | all => exact fun l hl => hsub l (h l hl)
    | any => exact h.imp fun l hl => ⟨hl.1, hsub l hl.2⟩
  | never => exact h

def Padded (text label : String) : Prop := Text.Pads text.toList label.toList

def SignFree (text : String) : Prop := ∀ c : Connective, c.sign ∉ text.toList

/-- The formulas that texts spell. An operand may be empty, and both signs together spell a formula
that never holds. -/
inductive Spells : String → Formula → Prop where
  | always {v : String} : Padded v "" → Spells v .always
  | label {v l : String} : Padded v l → l ≠ "" → SignFree v → Spells v (.label l)
  | join (c : Connective) {operands labels : List String} :
      2 ≤ operands.length → List.Forall₂ Padded operands labels → (∀ o ∈ operands, SignFree o) →
        Spells (Text.joined (.singleton c.sign) operands) (.join c labels)
  | never {v : String} : (∀ c : Connective, c.sign ∈ v.toList) → Spells v .never

theorem forall₂_padded_iff {operands labels : List String} :
    List.Forall₂ Padded operands labels ↔ operands.map Text.trimmed = labels := by
  have hpadded : Padded = fun o l => Text.trimmed o = l :=
    funext₂ fun o l => propext Text.trimmed_eq_iff.symm
  rw [← List.forall₂_eq_eq_eq, List.forall₂_map_left_iff, hpadded]

variable {v : String}

def operands (c : Connective) (v : String) : List String :=
  (Text.fieldsOf c.sign v).map Text.trimmed

theorem trimmed_ne_empty {c : Connective} (h : c.sign ∈ v.toList) : Text.trimmed v ≠ "" := by
  intro hempty
  have hmem := (Text.mem_trimmed_iff c.isBlank_sign).2 h
  rw [hempty] at hmem
  cases hmem

theorem sign_mem_joined {c d : Connective} {os : List String} (hmany : 2 ≤ os.length)
    (hfree : ∀ o ∈ os, SignFree o) :
    d.sign ∈ (Text.joined (.singleton c.sign) os).toList ↔ d = c := by
  rw [Text.mem_joined]
  constructor
  · rintro (⟨o, ho, hd⟩ | ⟨hd, -⟩)
    · exact absurd hd (hfree o ho d)
    · exact Connective.sign_injective hd
  · rintro rfl
    exact Or.inr ⟨rfl, hmany⟩

theorem operands_joined {c : Connective} {os : List String} (hmany : 2 ≤ os.length)
    (hfree : ∀ o ∈ os, SignFree o) :
    operands c (Text.joined (.singleton c.sign) os) = os.map Text.trimmed := by
  rw [operands, Text.fieldsOf_joined _ fun o ho => hfree o ho c]
  rintro rfl
  cases hmany

theorem spells_operands (c : Connective) (h : ∀ d : Connective, d.sign ∈ v.toList ↔ d = c) :
    Spells v (.join c (operands c v)) := by
  have hjoin : Text.joined (.singleton c.sign) (Text.fieldsOf c.sign v) = v :=
    Text.joined_fieldsOf c.sign v
  have hfree : ∀ o ∈ Text.fieldsOf c.sign v, SignFree o := by
    intro o ho d hd
    -- a sign in an operand stands in the text, so it is the one that sets the operands apart
    have hin : d.sign ∈ v.toList := by
      rw [← hjoin]
      exact Text.mem_joined.2 (Or.inl ⟨o, ho, hd⟩)
    cases (h d).1 hin
    exact Text.not_mem_of_mem_fieldsOf ho hd
  have hmany : 2 ≤ (Text.fieldsOf c.sign v).length := by
    have hin : c.sign ∈ v.toList := (h c).2 rfl
    rw [← hjoin] at hin
    rcases Text.mem_joined.1 hin with ⟨o, ho, hc⟩ | ⟨-, hmany⟩
    · exact absurd hc (hfree o ho c)
    · exact hmany
  have hspells := Spells.join c hmany (forall₂_padded_iff.2 rfl) hfree
  rwa [hjoin] at hspells

theorem exists_spells (v : String) : ∃ f, Spells v f := by
  by_cases hall : Connective.all.sign ∈ v.toList <;> by_cases hany : Connective.any.sign ∈ v.toList
  · exact ⟨.never, .never (by rintro (_ | _) <;> assumption)⟩
  · exact ⟨_, spells_operands .all (by rintro (_ | _) <;> simpa)⟩
  · exact ⟨_, spells_operands .any (by rintro (_ | _) <;> simpa)⟩
  · by_cases hblank : Text.trimmed v = ""
    · exact ⟨.always, .always (Text.trimmed_eq_iff.1 hblank)⟩
    · refine ⟨.label (Text.trimmed v), .label (Text.trimmed_eq_iff.1 rfl) hblank ?_⟩
      rintro (_ | _) <;> assumption

end Visibility

namespace Authorizations

open Visibility

/-- Some formula that the visibility spells holds of the labels. -/
def Satisfy (a : Authorizations) (visibility : String) : Prop :=
  ∃ f, Spells visibility f ∧ f.Holds a

variable {a : Authorizations} {v : String}

theorem canSee_blank (a : Authorizations) (h : Text.trimmed v = "") : a.canSee v = true := by
  simp [canSee, h]

/-- What is asked of a visibility that is not blank. Its own padding matters neither to the signs in
it nor to its operands. -/
theorem canSee_eq (a : Authorizations) (hne : Text.trimmed v ≠ "") :
    a.canSee v =
      if Connective.all.sign ∈ v.toList then
        if Connective.any.sign ∈ v.toList then false else (operands .all v).all a.holds
      else if Connective.any.sign ∈ v.toList then (operands .any v).any a.holds
      else a.holds (Text.trimmed v) := by
  have hsign (c : Connective) :
      (Text.trimmed v).toList.contains c.sign = decide (c.sign ∈ v.toList) := by
    rw [List.contains_eq_mem, decide_eq_decide, Text.mem_trimmed_iff c.isBlank_sign]
  have hoperands (c : Connective) :
      operands c v = (Text.fieldsOf c.sign (Text.trimmed v)).map Text.trimmed :=
    (Text.map_trimmed_fieldsOf_trimmed c.isBlank_sign v).symm
  have hall : (Text.trimmed v).toList.contains '&' = decide (Connective.all.sign ∈ v.toList) :=
    hsign .all
  have hany : (Text.trimmed v).toList.contains '|' = decide (Connective.any.sign ∈ v.toList) :=
    hsign .any
  rw [hoperands, hoperands, List.all_map, List.any_map, canSee, if_neg (by simpa using hne), hall,
    hany]
  by_cases hamp : Connective.all.sign ∈ v.toList <;> by_cases hbar : Connective.any.sign ∈ v.toList <;>
    simp only [hamp, hbar, decide_true, decide_false, if_true, if_false] <;> rfl

theorem canSee_label (hne : Text.trimmed v ≠ "") (h : SignFree v) :
    a.canSee v = true ↔ Text.trimmed v ∈ a := by
  rw [canSee_eq a hne, if_neg (h .all), if_neg (h .any)]
  exact decide_eq_true_iff

theorem canSee_join (c : Connective) (h : ∀ d : Connective, d.sign ∈ v.toList ↔ d = c) :
    a.canSee v = true ↔ c.Holds a (operands c v) := by
  rw [canSee_eq a (trimmed_ne_empty ((h c).2 rfl))]
  cases c with
  | all => simp [h, Connective.Holds, holds]
  | any => simp [h, Connective.Holds, holds]

theorem canSee_never (h : ∀ c : Connective, c.sign ∈ v.toList) : a.canSee v = false := by
  rw [canSee_eq a (trimmed_ne_empty (h .all)), if_pos (h .all), if_pos (h .any)]

theorem canSee_of_spells {f : Formula} (h : Spells v f) : a.canSee v = true ↔ f.Holds a := by
  cases h with
  | always hpad => exact iff_of_true (canSee_blank a (Text.trimmed_eq_iff.2 hpad)) trivial
  | label hpad hne hfree =>
    cases Text.trimmed_eq_iff.2 hpad
    exact canSee_label hne hfree
  | join c hmany hlabels hfree =>
    rw [canSee_join c fun d => sign_mem_joined hmany hfree, operands_joined hmany hfree,
      forall₂_padded_iff.1 hlabels]
    rfl
  | never hall => exact iff_of_false (by simp [canSee_never hall]) id

theorem canSee_iff : a.canSee v = true ↔ a.Satisfy v := by
  constructor
  · intro hsee
    obtain ⟨f, hf⟩ := exists_spells v
    exact ⟨f, hf, (canSee_of_spells hf).1 hsee⟩
  · rintro ⟨f, hf, hholds⟩
    exact (canSee_of_spells hf).2 hholds

theorem Satisfy.mono {b : Authorizations} (hsub : ∀ l ∈ a, l ∈ b) (h : a.Satisfy v) : b.Satisfy v :=
  h.imp fun _ hf => ⟨hf.1, hf.2.mono hsub⟩

end Authorizations

namespace MemoryStore

open Visibility

/-- Two stores hold the same of a table as far as the authorizations can see. -/
structure AgreeFor (a : Authorizations) (table : String) (s t : MemoryStore) : Prop where
  exists_iff : (s.find? table).isSome = true ↔ (t.find? table).isSome = true
  mem_iff : ∀ e : Entry, a.Satisfy e.key.visibility →
    (e ∈ entries (s.rows table) ↔ e ∈ entries (t.rows table))

theorem mem_returned_iff {rows : Table} {a : Authorizations} {ranges : List RowRange} {e : Entry} :
    e ∈ returned rows a ranges ↔
      e ∈ entries rows ∧ RowRange.Cover ranges e.key.row ∧ a.Satisfy e.key.visibility := by
  rw [returned, List.mem_filter, returns_iff, Authorizations.canSee_iff]

/-- With more labels a scan leaves out no entry that it returns with fewer. -/
theorem returned_sublist {a b : Authorizations} (hsub : ∀ l ∈ a, l ∈ b) (rows : Table)
    (ranges : List RowRange) : (returned rows a ranges).Sublist (returned rows b ranges) := by
  refine List.monotone_filter_right (entries rows) fun e he => ?_
  rw [returns_iff, Authorizations.canSee_iff] at he ⊢
  exact ⟨he.1, he.2.mono hsub⟩

theorem AgreeFor.scan_eq {a : Authorizations} {table : String} {s t : MemoryStore}
    (h : AgreeFor a table s t) (ranges : List RowRange) :
    s.scan table a ranges = t.scan table a ranges := by
  obtain ⟨hexists, hmem⟩ := h
  cases hs : s.find? table with
  | none =>
    have ht : t.find? table = none := by simpa [hs] using hexists
    rw [scan, scan, hs, ht]
  | some rows =>
    obtain ⟨others, ht⟩ := Option.isSome_iff_exists.1 (hexists.1 (by rw [hs]; rfl))
    rw [rows_of_find? hs, rows_of_find? ht] at hmem
    rw [MemoryStore.scan_eq hs, MemoryStore.scan_eq ht]
    -- both answers are in order of their keys, so the same members make them the same list
    have hsame : returned rows a ranges = returned others a ranges := by
      refine eq_of_increasing Entry.key (returned_increasing rows a ranges)
        (returned_increasing others a ranges) fun e => ?_
      rw [mem_returned_iff, mem_returned_iff]
      exact and_congr_left fun he => hmem e he.2
    rw [hsame]

theorem AgreeFor.write {a : Authorizations} {s : MemoryStore} {table : String} {key : Key}
    (hthere : (s.find? table).isSome = true) (hhidden : ¬ a.Satisfy key.visibility)
    (value : String) : AgreeFor a table s (s.write table key value) where
  exists_iff := by
    refine iff_of_true hthere ?_
    rw [MemoryStore.write, OrderedMap.find?_insert, if_pos rfl]
    rfl
  mem_iff := by
    intro e he
    have hkey : key ≠ e.key := fun hsame => hhidden (hsame ▸ he)
    have hrows :
        ((s.write table key value).rows table).find? e.key = (s.rows table).find? e.key := by
      rw [← StoreWrite.run, find?_rows_run, StoreWrite.valueOf?, if_neg fun h => hkey h.2,
        Option.none_or]
    rw [mem_entries_iff, mem_entries_iff, hrows]

/-- A scan under fewer labels returns part of what it returns under more, in the same order, and it
returns the entries in the ranges whose visibility its labels satisfy. What a visibility asks
depends on which labels its operands are, not on their order, repetition or padding. Stores that
agree on what the labels satisfy give the same answer, so hidden entries do not influence a
result. -/
theorem scan_confined {a b : Authorizations} (hsub : ∀ l ∈ a, l ∈ b) (s : MemoryStore)
    (table : String) (ranges : List RowRange) :
    (∀ e, s.scan table a ranges = .error e ↔ s.scan table b ranges = .error e) ∧
      (∀ answer, s.scan table a ranges = .ok answer →
        (∃ more, s.scan table b ranges = .ok more ∧ answer.Sublist more) ∧
          ∀ e, e ∈ answer ↔ e ∈ entries (s.rows table) ∧ RowRange.Cover ranges e.key.row ∧
            a.Satisfy e.key.visibility) ∧
      (∀ (c : Connective) (v w : String) (labels others : List String),
        Spells v (.join c labels) → Spells w (.join c others) → (∀ l, l ∈ labels ↔ l ∈ others) →
          (a.Satisfy v ↔ a.Satisfy w)) ∧
      ∀ t, AgreeFor a table s t → s.scan table a ranges = t.scan table a ranges := by
  refine ⟨fun e => ?_, fun answer hanswer => ?_, ?_, fun t h => h.scan_eq ranges⟩
  · cases hs : s.find? table with
    | none => rw [scan, scan, hs]
    | some rows => simp [scan_eq hs]
  · cases hs : s.find? table with
    | none => simp [scan, hs] at hanswer
    | some rows =>
      rw [scan_eq hs] at hanswer
      cases hanswer
      rw [rows_of_find? hs]
      exact ⟨⟨returned rows b ranges, scan_eq hs b ranges, returned_sublist hsub rows ranges⟩,
        fun e => mem_returned_iff⟩
  · intro c v w labels others hv hw hsame
    rw [← Authorizations.canSee_iff, ← Authorizations.canSee_iff,
      Authorizations.canSee_of_spells hv, Authorizations.canSee_of_spells hw]
    cases c with
    | all => simp [Formula.Holds, Connective.Holds, hsame]
    | any => simp [Formula.Holds, Connective.Holds, hsame]

theorem scan_confined_padded :
    let one : Authorizations := .ofList ["A"]
    let two : Authorizations := .ofList ["B", "A"]
    let both : Entry := ⟨⟨"r1", "a", " B& A "⟩, "1"⟩
    let either : Entry := ⟨⟨"r2", "a", "C | A"⟩, "2"⟩
    let s := ofWrites [.insert "shard" ⟨"r2", "a", "C | A"⟩ "2",
      .insert "shard" ⟨"r1", "a", " B& A "⟩ "1", .insert "shard" ⟨"r3", "a", "A&A|A"⟩ "3"]
    s.scan "shard" one [.all] = .ok [either] ∧ s.scan "shard" two [.all] = .ok [both, either] ∧
      [either].Sublist [both, either] ∧ (one.Satisfy "B&A" ↔ one.Satisfy " A & B&B") ∧
      (s.write "shard" ⟨"r2", "a", "C&A"⟩ "0").scan "shard" one [.all] = .ok [either] := by
  intro one two both either s
  have hsub : ∀ l ∈ one, l ∈ two := by decide
  obtain ⟨-, hanswer, hoperands, hagree⟩ := scan_confined hsub s "shard" [.all]
  have hone : s.scan "shard" one [.all] = .ok [either] := by rfl
  have htwo : s.scan "shard" two [.all] = .ok [both, either] := by rfl
  obtain ⟨⟨more, hmore, hsublist⟩, -⟩ := hanswer [either] hone
  cases htwo.symm.trans hmore
  refine ⟨hone, htwo, hsublist, ?_, ?_⟩
  · have hshort : Spells "B&A" (.join .all ["B", "A"]) :=
      spells_operands .all (by rintro (_ | _) <;> decide)
    have hlong : Spells " A & B&B" (.join .all ["A", "B", "B"]) :=
      spells_operands .all (by rintro (_ | _) <;> decide)
    exact hoperands .all _ _ _ _ hshort hlong fun l => by simp [or_comm]
  · have hhidden : ¬ one.Satisfy "C&A" := by
      rw [← Authorizations.canSee_iff]
      decide
    exact (hagree _ (.write rfl hhidden "0")).symm.trans hone

end MemoryStore
end ShardQuery
