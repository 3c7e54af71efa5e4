import Mathlib.Data.List.Nodup
import ShardQuery.Json.Decode
import ShardQuery.Log.Line
import ShardQuery.Proofs.Json.PrintedText
import ShardQuery.Proofs.Text.ByteOrder

/-!
# The text of a log line

A line is its quoted members between braces and a line feed. Whatever characters the event, the keys
and the values have, the only line feed is the last character, and the text before it is read back as
the members that were written. The fields stand in the order of their keys, so the order in which they
were given matters only to fields of one key.
-/

namespace ShardQuery.Log.Line

/-- The fields in the order of the bytes of their keys, those of one key in the order given. -/
structure InKeyOrder (sorted given : List (String × String)) : Prop where
  perm : sorted.Perm given
  increasing : sorted.Pairwise fun a b => (compare (Text.bytesOf a.1) (Text.bytesOf b.1)).isLE
  stable : ∀ key, (sorted.filter fun f => f.1 = key) = given.filter fun f => f.1 = key

def memberChars (m : String × String) : List Char :=
  Json.quoteChars m.1.toList ++ ':' :: Json.quoteChars m.2.toList

def readMembers? (s : String) : Option (List (String × String)) :=
  (Json.readWhole? s).bind (Json.asMembers? Json.asString?)

/-! ## Order of the fields -/

private def keyLE (a b : String × String) : Bool := (compare a.1 b.1).isLE

private theorem keyLE_trans (a b c : String × String) (hab : keyLE a b = true)
    (hbc : keyLE b c = true) : keyLE a c = true := Std.TransCmp.isLE_trans hab hbc

private theorem keyLE_total (a b : String × String) : (keyLE a b || keyLE b a) = true := by
  have hswap : compare b.1 a.1 = (compare a.1 b.1).swap := Std.OrientedOrd.eq_swap
  rw [keyLE, keyLE, hswap]
  cases compare a.1 b.1 <;> rfl

theorem perm_sortedFields (l : Line) : l.sortedFields.Perm l.fields :=
  List.mergeSort_perm l.fields keyLE

theorem pairwise_sortedFields (l : Line) :
    l.sortedFields.Pairwise fun a b => (compare a.1 b.1).isLE :=
  List.pairwise_mergeSort keyLE_trans keyLE_total l.fields

theorem filter_sortedFields (l : Line) (key : String) :
    (l.sortedFields.filter fun f => f.1 = key) = l.fields.filter fun f => f.1 = key := by
  have hequal : (l.fields.filter fun f => f.1 = key).Pairwise fun a b => keyLE a b = true := by
    refine List.pairwise_of_forall_mem_list fun a ha b hb => ?_
    rw [keyLE, of_decide_eq_true (List.mem_filter.1 ha).2, of_decide_eq_true (List.mem_filter.1 hb).2]
    simp
  have hsublist : (l.fields.filter fun f => f.1 = key).Sublist l.sortedFields :=
    List.sublist_mergeSort keyLE_trans keyLE_total hequal List.filter_sublist
  have hfilter := hsublist.filter fun f => f.1 = key
  simp only [List.filter_filter, Bool.and_self] at hfilter
  exact (hfilter.eq_of_length (l.perm_sortedFields.filter _).length_eq.symm).symm

/-- Fields of different keys stand in one order, whatever the order in which they were given. -/
theorem sortedFields_eq_of_perm {l m : Line} (hkeys : (l.fields.map Prod.fst).Nodup)
    (h : l.fields.Perm m.fields) : l.sortedFields = m.sortedFields := by
  refine List.Perm.eq_of_pairwise ?_ l.pairwise_sortedFields m.pairwise_sortedFields
    ((l.perm_sortedFields.trans h).trans m.perm_sortedFields.symm)
  intro a b ha hb hab hba
  have hkey : a.1 = b.1 := Std.LawfulEqOrd.eq_of_compare (Std.OrientedCmp.isLE_antisymm hab hba)
  exact List.inj_on_of_nodup_map hkeys (l.perm_sortedFields.mem_iff.1 ha)
    (h.mem_iff.2 (m.perm_sortedFields.mem_iff.1 hb)) hkey

theorem inKeyOrder_sortedFields (l : Line) : InKeyOrder l.sortedFields l.fields where
  perm := l.perm_sortedFields
  increasing := by
    simpa only [Text.compare_bytesOf] using l.pairwise_sortedFields
  stable := l.filter_sortedFields

/-! ## The text -/

theorem text_eq (l : Line) : l.text = String.ofList (l.toJson.chars ++ []) := by
  rw [List.append_nil]
  rfl

theorem render_eq (l : Line) : l.render = String.ofList (l.toJson.chars ++ ['\n']) := by
  rw [String.ofList_append]
  rfl

private theorem charsOfMembers_strings (ms : List (String × String)) :
    Json.charsOfMembers (ms.map fun m => (m.1, .string m.2)) =
      Text.join [','] (ms.map memberChars) ++ ['\x7d'] := by
  induction ms with
  | nil => rfl
  | cons m ms ih =>
    cases ms with
    | nil => simp [Json.charsOfMembers, Json.chars, Text.join, memberChars]
    | cons n ms =>
      rw [List.map_cons] at ih
      rw [List.map_cons, List.map_cons, Json.charsOfMembers_cons_cons, ih]
      simp [Json.chars, Text.join, memberChars]

theorem chars_toJson (l : Line) :
    l.toJson.chars = '\x7b' :: (Text.join [','] (l.members.map memberChars) ++ ['\x7d']) := by
  rw [toJson, Json.chars, charsOfMembers_strings]

theorem exact_toJson (l : Line) : l.toJson.Exact := by
  refine .object fun m hm => ?_
  obtain ⟨f, -, rfl⟩ := List.mem_map.1 hm
  exact .string f.2

theorem depth_toJson (l : Line) : l.toJson.depth = 1 := by
  have hflat (ms : List (String × String)) :
      Json.depthOfMembers (ms.map fun m => (m.1, .string m.2)) = 0 := by
    induction ms with
    | nil => rfl
    | cons m ms ih => simp [Json.depthOfMembers, Json.depth, ih]
  rw [toJson, Json.depth, hflat]

theorem asMembers?_toJson (l : Line) : Json.asMembers? Json.asString? l.toJson = some l.members := by
  have hmembers : l.members.mapM (fun m => some (m.1, m.2)) = some l.members :=
    List.mapM_pure.trans (congrArg some (List.map_id l.members))
  rw [toJson, Json.asMembers?, List.mapM_map]
  simpa [Function.comp_def, Json.asString?] using hmembers

theorem readMembers?_text (l : Line) :
    readMembers? l.text = some l.members ∧ readMembers? l.render = some l.members := by
  have hread {blanks : List Char} (hblanks : ∀ c ∈ blanks, Json.isSpace c) :
      readMembers? (String.ofList (l.toJson.chars ++ blanks)) = some l.members := by
    rw [readMembers?, Json.readWhole?_chars l.exact_toJson hblanks, l.depth_toJson,
      if_pos (by decide), Option.bind_some, asMembers?_toJson]
  exact ⟨l.text_eq ▸ hread (by simp), l.render_eq ▸ hread (by simp [Json.isSpace])⟩

theorem lineFeed_notMem_text (l : Line) : '\n' ∉ l.text.toList := by
  intro h
  rw [text, Json.render, String.toList_ofList] at h
  exact absurd (l.exact_toJson.le_toNat '\n' h) (by decide)

/-- A rendered line is one line. Its text is an object of the quoted event and severity, and then of
the quoted fields in the order of their keys, and reads back as exactly these members. If the keys are
different the line is the same for every order in which the fields are given. -/
theorem render_oneLine (l : Line) :
    let members := ("event", l.event) :: ("severity", l.severity.name) :: l.sortedFields
    l.render = l.text ++ "\n" ∧ '\n' ∉ l.text.toList ∧
    l.text.toList = '\x7b' :: (Text.join [','] (members.map memberChars) ++ ['\x7d']) ∧
    readMembers? l.text = some members ∧ readMembers? l.render = some members ∧
    InKeyOrder l.sortedFields l.fields ∧
    ((l.fields.map Prod.fst).Nodup →
      ∀ fields, l.fields.Perm fields → render { l with fields } = l.render) := by
  intro members
  refine ⟨rfl, l.lineFeed_notMem_text, ?_, l.readMembers?_text.1, l.readMembers?_text.2,
    l.inKeyOrder_sortedFields, ?_⟩
  · rw [text_eq, String.toList_ofList, List.append_nil, chars_toJson]
    rfl
  · intro hkeys fields hperm
    have hsorted : l.sortedFields = sortedFields { l with fields } :=
      sortedFields_eq_of_perm hkeys hperm
    rw [render, render, text, text, toJson, toJson, Line.members, Line.members, hsorted]

/-- A value that goes on like a member and a line of its own stays one value, in both orders of the
fields. -/
theorem render_oneLine_forged :
    let forged := "up\",\"apple\":\"3\"\x7d\n\\"
    let l : Line := ⟨.warn, "TEST", [("apple", "2"), ("zone", forged)]⟩
    let m : Line := ⟨.warn, "TEST", [("zone", forged), ("apple", "2")]⟩
    m.render = l.render ∧
      readMembers? m.render =
        some [("event", "TEST"), ("severity", "WARN"), ("apple", "2"), ("zone", forged)] := by
  intro forged l m
  obtain ⟨-, -, -, -, hread, -, hsame⟩ := render_oneLine l
  have hsorted : l.sortedFields = l.fields :=
    List.mergeSort_of_pairwise (List.pairwise_pair.2 (by decide))
  have hm : m.render = l.render := hsame (by decide) _ (.swap _ _ _)
  rw [hm, hread, hsorted]
  exact ⟨rfl, rfl⟩

end ShardQuery.Log.Line
