import ShardQuery.Json.Printer
import ShardQuery.Proofs.Json.NumberText
import ShardQuery.Proofs.Json.QuotedText

/-!
# Printed values

A value is printed so that reading stops where its text ends and gives the value back. This holds of
every value without doubles and without unreadable parts, at any depth. Its text is one line, with no
control character in it.
-/

namespace ShardQuery.Json

/-- A value in which every number is an integer that fits 64 bits and every part is readable. -/
inductive Exact : Json → Prop
  | null : Exact .null
  | bool (b : Bool) : Exact (.bool b)
  | number {n : Number} (h : n.IsWord) : Exact (.number n)
  | string (s : String) : Exact (.string s)
  | array {items : List Json} (h : ∀ v ∈ items, Exact v) : Exact (.array items)
  | object {members : List (String × Json)} (h : ∀ m ∈ members, Exact m.2) : Exact (.object members)

/-- A value whose text is read back, up to where it ends and with as much fuel as it is long. What
follows must not go on with a number. -/
structure ReadsBack (v : Json) : Prop where
  starts : ∃ c cs, v.chars = c :: cs ∧ isSpace c = false ∧ c ≠ ']'
  scan : ∀ {fuel : Nat} {rest : List Char}, v.chars.length ≤ fuel → EndsNumber rest →
    scanValue (fuel + 1) (v.chars ++ rest) = some (v, rest)

theorem endsNumber_cons {c : Char} (h : c.isDigit = false ∧ c ≠ '.' ∧ c ≠ 'e' ∧ c ≠ 'E')
    (rest : List Char) : EndsNumber (c :: rest) := by
  rintro _ ⟨⟩
  exact h

theorem skipSpace_cons {c : Char} (h : isSpace c = false) (cs : List Char) :
    skipSpace (c :: cs) = c :: cs := List.dropWhile_cons_of_neg (by simp [h])

theorem scanValue_quote (fuel : Nat) (rest : List Char) :
    scanValue (fuel + 1) ('"' :: rest) = (scanString rest).map fun r => (stringOf r.1, r.2) := rfl

/-! ## Values without parts -/

theorem readsBack_null : ReadsBack .null where
  starts := ⟨'n', "ull".toList, rfl, rfl, by decide⟩
  scan _ _ := rfl

theorem readsBack_bool (b : Bool) : ReadsBack (.bool b) := by
  cases b with
  | true => exact ⟨⟨'t', "rue".toList, rfl, rfl, by decide⟩, fun _ _ => rfl⟩
  | false => exact ⟨⟨'f', "alse".toList, rfl, rfl, by decide⟩, fun _ _ => rfl⟩

theorem readsBack_string (s : String) : ReadsBack (.string s) where
  starts := ⟨'"', s.toList.flatMap escapeChar ++ ['"'], rfl, rfl, by decide⟩
  scan := by
    intro fuel rest _ _
    rw [chars, quoteChars, List.cons_append, List.append_assoc, List.singleton_append,
      scanValue_quote, scanString_flatMap, Option.map_some, stringOf_map_char, String.ofList_toList]

def StartsNumber (c : Char) : Prop :=
  isSpace c = false ∧ c ≠ '"' ∧ c ≠ '[' ∧ c ≠ ']' ∧ c ≠ '\x7b' ∧ c ≠ 'n' ∧ c ≠ 't' ∧ c ≠ 'f'

instance (c : Char) : Decidable (StartsNumber c) :=
  inferInstanceAs (Decidable (_ ∧ _))

theorem scanValue_of_startsNumber {c : Char} (h : StartsNumber c) (fuel : Nat) (cs : List Char) :
    scanValue (fuel + 1) (c :: cs) = (scanNumber? (c :: cs)).map fun r => (numberOf r.1, r.2) := by
  obtain ⟨hspace, hquote, hopen, -, hbrace, hn, ht, hf⟩ := h
  rw [scanValue, skipSpace_cons hspace]
  split <;> simp_all

theorem readsBack_number {n : Number} (h : n.IsWord) : ReadsBack (.number n) := by
  cases n with
  | float x => exact h.elim
  | int k =>
    obtain ⟨c, cs, hk, hc⟩ := exists_decimalInt_eq_cons k
    have hstarts : StartsNumber c := by
      rcases hc with rfl | hc
      · decide
      · exact Text.of_isDigit (p := StartsNumber) (by decide) hc
    refine ⟨⟨c, cs, hk, hstarts.1, hstarts.2.2.2.1⟩, ?_⟩
    intro fuel rest _ hrest
    have hscan := scanNumber?_decimalInt k hrest
    rw [hk, List.cons_append] at hscan
    rw [chars, Number.render, hk, List.cons_append, scanValue_of_startsNumber hstarts, hscan,
      Option.map_some, numberOf, number?_numeralOf h]

/-! ## Arrays -/

theorem charsOfItems_cons_cons (v w : Json) (vs : List Json) :
    charsOfItems (v :: w :: vs) = v.chars ++ ',' :: charsOfItems (w :: vs) := by
  rw [charsOfItems]
  simp

theorem exists_charsOfItems_eq_cons {v : Json} (h : ReadsBack v) (vs : List Json) :
    ∃ c cs, charsOfItems (v :: vs) = c :: cs ∧ isSpace c = false ∧ c ≠ ']' := by
  obtain ⟨c, cs, hv, hc⟩ := h.starts
  cases vs with
  | nil => exact ⟨c, _, by rw [charsOfItems, hv, List.cons_append], hc⟩
  | cons w vs => exact ⟨c, _, by rw [charsOfItems_cons_cons, hv, List.cons_append], hc⟩

theorem scanItems_chars {items : List Json} (hne : items ≠ []) (h : ∀ v ∈ items, ReadsBack v)
    {fuel : Nat} {rest : List Char} (hfuel : (charsOfItems items).length ≤ fuel) :
    scanItems (fuel + 1) (charsOfItems items ++ rest) = some (items, rest) := by
  induction items generalizing fuel with
  | nil => exact absurd rfl hne
  | cons v items ih =>
    obtain ⟨hv, hitems⟩ := List.forall_mem_cons.1 h
    cases items with
    | nil =>
      rw [charsOfItems, List.length_append, List.length_singleton] at hfuel
      obtain ⟨fuel, rfl⟩ := Nat.exists_eq_add_one.2 (Nat.zero_lt_of_lt hfuel)
      have hscan := hv.scan (Nat.le_of_succ_le_succ hfuel)
        (endsNumber_cons (c := ']') (by decide) rest)
      rw [charsOfItems, List.append_assoc, List.singleton_append, scanItems, hscan]
      rfl
    | cons w vs =>
      rw [charsOfItems_cons_cons, List.length_append, List.length_cons] at hfuel
      obtain ⟨fuel, rfl⟩ : ∃ n, fuel = n + 1 := Nat.exists_eq_add_one.2 (by omega)
      have hvfuel : v.chars.length ≤ fuel := by omega
      have hscan := hv.scan hvfuel
        (endsNumber_cons (c := ',') (by decide) (charsOfItems (w :: vs) ++ rest))
      have htail : scanItems (fuel + 1) (charsOfItems (w :: vs) ++ rest) = some (w :: vs, rest) :=
        ih (by simp) hitems (by omega)
      rw [charsOfItems_cons_cons, List.append_assoc, List.cons_append, scanItems, hscan]
      simp [skipSpace_cons, isSpace, htail]

theorem scanValue_items {c : Char} (hspace : isSpace c = false) (hclose : c ≠ ']') (fuel : Nat)
    (cs : List Char) :
    scanValue (fuel + 1) ('[' :: c :: cs) =
      (scanItems fuel (c :: cs)).map fun r => (.array r.1, r.2) := by
  rw [scanValue, skipSpace_cons rfl]
  simp [skipSpace_cons hspace, hclose]

theorem readsBack_array {items : List Json} (h : ∀ v ∈ items, ReadsBack v) :
    ReadsBack (.array items) := by
  refine ⟨⟨'[', charsOfItems items, rfl, rfl, by decide⟩, ?_⟩
  intro fuel rest hfuel _
  cases items with
  | nil => rfl
  | cons v vs =>
    obtain ⟨c, cs, hchars, hspace, hclose⟩ := exists_charsOfItems_eq_cons (h v List.mem_cons_self) vs
    rw [chars, List.length_cons] at hfuel
    obtain ⟨fuel, rfl⟩ := Nat.exists_eq_add_one.2 (Nat.zero_lt_of_lt hfuel)
    have hscan : scanItems (fuel + 1) (charsOfItems (v :: vs) ++ rest) = some (v :: vs, rest) :=
      scanItems_chars (by simp) h (Nat.le_of_succ_le_succ hfuel)
    rw [hchars, List.cons_append] at hscan
    rw [chars, hchars, List.cons_append, List.cons_append, scanValue_items hspace hclose, hscan,
      Option.map_some]

/-! ## Objects -/

theorem charsOfMembers_cons_cons (m n : String × Json) (ms : List (String × Json)) :
    charsOfMembers (m :: n :: ms) =
      quoteChars m.1.toList ++ ':' :: m.2.chars ++ ',' :: charsOfMembers (n :: ms) := by
  obtain ⟨k, v⟩ := m
  rw [charsOfMembers]
  simp

section

variable {v : Json} {fuel : Nat} (h : ReadsBack v) (hfuel : v.chars.length ≤ fuel) (k : String)
  (rest : List Char)

include h hfuel

theorem scanMembers_last :
    scanMembers (fuel + 2) (quoteChars k.toList ++ ':' :: (v.chars ++ '\x7d' :: rest)) =
      some ([(.string k, v)], rest) := by
  have hscan := h.scan hfuel (endsNumber_cons (c := '\x7d') (by decide) rest)
  rw [quoteChars, List.cons_append, List.append_assoc, List.singleton_append, scanMembers,
    skipSpace_cons rfl]
  simp [scanString_flatMap, skipSpace_cons, isSpace, hscan, stringOf_map_char]

theorem scanMembers_further :
    scanMembers (fuel + 2) (quoteChars k.toList ++ ':' :: (v.chars ++ ',' :: rest)) =
      (scanMembers (fuel + 1) rest).map fun r => ((.string k, v) :: r.1, r.2) := by
  have hscan := h.scan hfuel (endsNumber_cons (c := ',') (by decide) rest)
  rw [quoteChars, List.cons_append, List.append_assoc, List.singleton_append, scanMembers,
    skipSpace_cons rfl]
  cases hrest : scanMembers (fuel + 1) rest <;>
    simp [scanString_flatMap, skipSpace_cons, isSpace, hscan, stringOf_map_char, hrest]

end

theorem scanMembers_chars {members : List (String × Json)} (hne : members ≠ [])
    (h : ∀ m ∈ members, ReadsBack m.2) {fuel : Nat} {rest : List Char}
    (hfuel : (charsOfMembers members).length ≤ fuel) :
    scanMembers (fuel + 1) (charsOfMembers members ++ rest) =
      some (members.map fun m => (.string m.1, m.2), rest) := by
  induction members generalizing fuel with
  | nil => exact absurd rfl hne
  | cons m members ih =>
    obtain ⟨hm, hmembers⟩ := List.forall_mem_cons.1 h
    obtain ⟨k, v⟩ := m
    cases members with
    | nil =>
      simp only [charsOfMembers, List.length_append, List.length_cons, List.length_nil] at hfuel
      obtain ⟨fuel, rfl⟩ : ∃ n, fuel = n + 1 := Nat.exists_eq_add_one.2 (by omega)
      have hvfuel : v.chars.length ≤ fuel := by omega
      simpa [charsOfMembers] using scanMembers_last hm hvfuel k rest
    | cons n ms =>
      simp only [charsOfMembers_cons_cons, List.length_append, List.length_cons] at hfuel
      obtain ⟨fuel, rfl⟩ : ∃ n, fuel = n + 1 := Nat.exists_eq_add_one.2 (by omega)
      have hvfuel : v.chars.length ≤ fuel := by omega
      have hfurther := scanMembers_further hm hvfuel k (charsOfMembers (n :: ms) ++ rest)
      rw [ih (by simp) hmembers (by omega)] at hfurther
      simpa [charsOfMembers_cons_cons] using hfurther

theorem objectOf_map_string (members : List (String × Json)) :
    objectOf (members.map fun m => (.string m.1, m.2)) = .object members := by
  have hnamed : members.mapM (fun m => some (m.1, m.2)) = some members :=
    List.mapM_pure.trans (congrArg some (List.map_id members))
  rw [objectOf, List.mapM_map]
  simp [Function.comp_def, hnamed]

theorem scanValue_members {c : Char} (hspace : isSpace c = false) (hclose : c ≠ '\x7d') (fuel : Nat)
    (cs : List Char) :
    scanValue (fuel + 1) ('\x7b' :: c :: cs) =
      (scanMembers fuel (c :: cs)).map fun r => (objectOf r.1, r.2) := by
  rw [scanValue, skipSpace_cons rfl]
  simp [skipSpace_cons hspace, hclose]

theorem exists_charsOfMembers_eq_cons (m : String × Json) (ms : List (String × Json)) :
    ∃ cs, charsOfMembers (m :: ms) = '"' :: cs := by
  cases ms with
  | nil => exact ⟨_, rfl⟩
  | cons n ms => exact ⟨_, charsOfMembers_cons_cons m n ms⟩

theorem readsBack_object {members : List (String × Json)} (h : ∀ m ∈ members, ReadsBack m.2) :
    ReadsBack (.object members) := by
  refine ⟨⟨'\x7b', charsOfMembers members, rfl, rfl, by decide⟩, ?_⟩
  intro fuel rest hfuel _
  cases members with
  | nil => rfl
  | cons m ms =>
    obtain ⟨cs, hchars⟩ := exists_charsOfMembers_eq_cons m ms
    rw [chars, List.length_cons] at hfuel
    obtain ⟨fuel, rfl⟩ := Nat.exists_eq_add_one.2 (Nat.zero_lt_of_lt hfuel)
    have hscan : scanMembers (fuel + 1) (charsOfMembers (m :: ms) ++ rest) =
        some ((m :: ms).map fun m => (.string m.1, m.2), rest) :=
      scanMembers_chars (by simp) h (Nat.le_of_succ_le_succ hfuel)
    rw [hchars, List.cons_append] at hscan
    rw [chars, hchars, List.cons_append, List.cons_append, scanValue_members rfl (by decide), hscan,
      Option.map_some, objectOf_map_string]

/-! ## Values -/

theorem Exact.readsBack {v : Json} (h : v.Exact) : v.ReadsBack := by
  induction h with
  | null => exact readsBack_null
  | bool b => exact readsBack_bool b
  | number h => exact readsBack_number h
  | string s => exact readsBack_string s
  | array _ ih => exact readsBack_array ih
  | object _ ih => exact readsBack_object ih

/-- The text of a value is read back, with blanks behind it or without. -/
theorem read?_chars {v : Json} (h : v.Exact) {blanks : List Char}
    (hblanks : ∀ c ∈ blanks, isSpace c) :
    read? (String.ofList (v.chars ++ blanks)) = some v := by
  have hends : EndsNumber blanks := by
    intro c hc
    have hspace := hblanks c (List.mem_of_mem_head? hc)
    simp only [isSpace, Bool.or_eq_true, decide_eq_true_eq] at hspace
    rcases hspace with ((rfl | rfl) | rfl) | rfl <;> decide
  have hfuel : v.chars.length ≤ 2 * (v.chars ++ blanks).length + 1 := by
    rw [List.length_append]
    omega
  have hscan := h.readsBack.scan hfuel hends
  have hrest : skipSpace blanks = [] := List.dropWhile_eq_nil_iff.2 hblanks
  simp only [read?, String.toList_ofList, hscan, hrest, List.isEmpty_nil, if_true]

theorem itemsReadable_iff {items : List Json} :
    itemsReadable items = true ↔ ∀ v ∈ items, v.isReadable = true := by
  induction items with
  | nil => simp [itemsReadable]
  | cons v vs ih => simp [itemsReadable, ih]

theorem membersReadable_iff {members : List (String × Json)} :
    membersReadable members = true ↔ ∀ m ∈ members, m.2.isReadable = true := by
  induction members with
  | nil => simp [membersReadable]
  | cons m ms ih => simp [membersReadable, ih]

theorem Exact.isReadable {v : Json} (h : v.Exact) : v.isReadable = true := by
  induction h with
  | null | bool | number | string => rfl
  | array _ ih => exact itemsReadable_iff.2 ih
  | object _ ih => exact membersReadable_iff.2 ih

theorem readWhole?_chars {v : Json} (h : v.Exact) {blanks : List Char}
    (hblanks : ∀ c ∈ blanks, isSpace c) :
    readWhole? (String.ofList (v.chars ++ blanks)) =
      if v.depth ≤ depthLimit then some v else none := by
  rw [readWhole?, read?_chars h hblanks, Option.filter_some, isWhole, h.isReadable, Bool.true_and]
  simp only [decide_eq_true_eq]

theorem readWhole?_render {v : Json} (h : v.Exact) :
    readWhole? v.render = if v.depth ≤ depthLimit then some v else none := by
  have hread := readWhole?_chars h (List.forall_mem_nil _)
  rwa [List.append_nil] at hread

/-! ## Control characters -/

theorem le_toNat_of_mem_decimalInt {k : Int} {c : Char} (h : c ∈ (Text.decimalInt k).toList) :
    0x20 ≤ c.toNat := by
  have hdigit (n : Nat) : ∀ c ∈ Text.renderNat 10 n, 0x20 ≤ c.toNat := by
    intro c hc
    obtain ⟨d, hd, rfl⟩ := Text.exists_digit_of_mem_renderNat (by decide) hc
    rw [Text.toNat_digitChar (by omega), if_pos hd]
    omega
  cases k with
  | ofNat n =>
    rw [toList_decimalInt_ofNat] at h
    exact hdigit n c h
  | negSucc n =>
    rw [toList_decimalInt_negSucc] at h
    rcases List.mem_cons.1 h with rfl | h
    · decide
    · exact hdigit (n + 1) c h

section

variable {p : Char → Prop}

theorem forall_mem_charsOfItems {items : List Json} (hcomma : p ',') (hclose : p ']')
    (h : ∀ v ∈ items, ∀ c ∈ v.chars, p c) : ∀ c ∈ charsOfItems items, p c := by
  induction items with
  | nil => simpa [charsOfItems] using hclose
  | cons v items ih =>
    obtain ⟨hv, hitems⟩ := List.forall_mem_cons.1 h
    cases items with
    | nil =>
      rw [charsOfItems, List.forall_mem_append, List.forall_mem_singleton]
      exact ⟨hv, hclose⟩
    | cons w vs =>
      rw [charsOfItems_cons_cons, List.forall_mem_append, List.forall_mem_cons]
      exact ⟨hv, hcomma, ih hitems⟩

theorem forall_mem_charsOfMembers {members : List (String × Json)} (hcomma : p ',') (hcolon : p ':')
    (hclose : p '\x7d')
    (h : ∀ m ∈ members, (∀ c ∈ quoteChars m.1.toList, p c) ∧ ∀ c ∈ m.2.chars, p c) :
    ∀ c ∈ charsOfMembers members, p c := by
  induction members with
  | nil => simpa [charsOfMembers] using hclose
  | cons m members ih =>
    obtain ⟨⟨hk, hv⟩, hmembers⟩ := List.forall_mem_cons.1 h
    cases members with
    | nil =>
      rw [charsOfMembers, List.append_assoc, List.forall_mem_append, List.cons_append,
        List.forall_mem_cons, List.forall_mem_append, List.forall_mem_singleton]
      exact ⟨hk, hcolon, hv, hclose⟩
    | cons n ms =>
      rw [charsOfMembers_cons_cons, List.append_assoc, List.forall_mem_append, List.cons_append,
        List.forall_mem_cons, List.forall_mem_append, List.forall_mem_cons]
      exact ⟨hk, hcolon, hv, hcomma, ih hmembers⟩

end

theorem Exact.le_toNat {v : Json} (h : v.Exact) : ∀ c ∈ v.chars, 0x20 ≤ c.toNat := by
  induction h with
  | null => simp [chars]
  | bool b => cases b <;> simp [chars]
  | @number n h =>
    cases n with
    | int k => exact fun c hc => le_toNat_of_mem_decimalInt hc
    | float x => exact h.elim
  | string s => exact fun c hc => le_toNat_of_mem_quoteChars hc
  | array _ ih =>
    rw [chars, List.forall_mem_cons]
    exact ⟨by decide, forall_mem_charsOfItems (by decide) (by decide) ih⟩
  | object _ ih =>
    rw [chars, List.forall_mem_cons]
    refine ⟨by decide, forall_mem_charsOfMembers (by decide) (by decide) (by decide) fun m hm => ?_⟩
    exact ⟨fun c hc => le_toNat_of_mem_quoteChars hc, ih m hm⟩

end ShardQuery.Json
