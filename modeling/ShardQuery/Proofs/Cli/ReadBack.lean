import ShardQuery.Cli.Folder
import ShardQuery.Proofs.Config.Acceptance
import ShardQuery.Proofs.Identifier.IdentifierText

/-!
# Reading a printed identifier back

An identifier that was printed is read again by passing it to the reading command. After two dashes
the answer is the one that printed it. Without them an identifier that starts with a minus sign is
taken for options and refused: this happens to the hash identifiers without a time of day whose first
hash is negative, and to no others.
-/

namespace ShardQuery

/-- What the text of a hash identifier starts with: the mark of a time of day, or the first hash. -/
theorem Identifier.toList_text_hash (b : HashBase) (e : Option String) :
    (b.timeOfDay ≠ none ∧ ∃ rest, (text ⟨.hash b, e⟩).toList = '+' :: rest) ∨
    (b.timeOfDay = none ∧
      ∃ rest, (text ⟨.hash b, e⟩).toList = Radix.chars b.h0.toInt ++ '.' :: rest) := by
  obtain ⟨h0, h1, h2, timeOfDay⟩ := b
  rw [toList_text_eq, IdentifierBase.text, HashBase.text, String.toList_ofList]
  cases timeOfDay with
  | some ms => simp [HashBase.segments, HashBase.timeSegments, HashBase.hashSegments, Text.join]
  | none => simp [HashBase.segments, HashBase.timeSegments, HashBase.hashSegments, Text.join]

namespace Cli

/-! ## Shapes of arguments -/

theorem shapeOf_plain {arg : String} {c : Char} {cs : List Char} (harg : arg.toList = c :: cs)
    (hc : '-' ≠ c) : shapeOf arg = .plain := by
  unfold shapeOf
  split <;> simp_all

theorem shapeOf_dashed {arg : String} {c : Char} {cs : List Char}
    (harg : arg.toList = '-' :: c :: cs) (hc : '-' ≠ c) : shapeOf arg = .dashed := by
  unfold shapeOf
  split <;> simp_all

/-- Printed hash identifiers look like options when they start with a negative hash. -/
theorem shapeOf_text_hash (b : HashBase) (e : Option String) :
    shapeOf (Identifier.text ⟨.hash b, e⟩) =
      if b.timeOfDay = none ∧ b.h0.toInt < 0 then .dashed else .plain := by
  cases Identifier.toList_text_hash b e with
  | inl htimed =>
    obtain ⟨htime, rest, htext⟩ := htimed
    rw [if_neg (fun h => htime h.1), shapeOf_plain htext (by decide)]
  | inr huntimed =>
    obtain ⟨htime, rest, htext⟩ := huntimed
    by_cases hneg : b.h0.toInt < 0
    · obtain ⟨d, ds, hchars, hd⟩ := Radix.chars_eq_cons_of_neg hneg
      rw [hchars] at htext
      rw [if_pos ⟨htime, hneg⟩, shapeOf_dashed htext hd]
    · obtain ⟨d, ds, hchars, hd⟩ := Radix.chars_eq_cons_of_nonneg (Int.not_lt.1 hneg)
      rw [hchars] at htext
      rw [if_neg (fun h => hneg h.2), shapeOf_plain htext hd]

/-! ## The reading command -/

theorem parse?_read_plain {s : String} (h : shapeOf s = .plain) :
    Command.parse? ["uid", "parse", s] = some (.readIdentifier (-1) s) := by
  simp [Command.parse?, readIdentifier?, sorted?, sortArguments?, h, Sorted.addPositional,
    Sorted.first?, Sorted.all]

theorem parse?_read_dashed {s : String} (h : shapeOf s = .dashed) :
    Command.parse? ["uid", "parse", s] = none := by
  simp [Command.parse?, readIdentifier?, sorted?, sortArguments?, h]

/-- After two dashes alone any text is read, whatever it looks like. -/
theorem parse?_read_separated (s : String) :
    Command.parse? ["uid", "parse", "--", s] = some (.readIdentifier (-1) s) := by
  rfl

/-! ## Answers -/

/-- The identifier that an answer names. -/
def printedIdentifier? : Json → Option String
  | .object members => (members.lookup "uid").bind Json.asString?
  | _ => none

theorem printedIdentifier?_describe (u : Identifier) :
    printedIdentifier? (describe u) = some u.text := by
  obtain ⟨base, extra⟩ := u
  cases base <;> rfl

namespace Folder

/-- What a call answers; nothing when its arguments are refused. -/
def respond? (d : Folder) (args : List String) : Option (Except Error Json) :=
  (Command.parse? args).map fun command => (d.converse (command.run initialLog)).1

def config? (d : Folder) : Option String → Option Config
  | none => some {}
  | some path =>
    match d.read path with
    | .text content => (Config.parse content).toOption
    | .unopened _ | .unread _ => none

theorem respond?_of_parse? {args : List String} {command : Command}
    (h : Command.parse? args = some command) (d : Folder) :
    d.respond? args = some (d.converse (command.run initialLog)).1 := by
  rw [respond?, h, Option.map_some]

/-- Any folder answers the reading of a printed identifier with what was printed. -/
theorem answer_readIdentifier {u : Identifier} (hu : u.WellFormed) (d : Folder) (log : Log) :
    (d.converse ((Command.readIdentifier (-1) u.text).run log)).1 = .ok (describe u) := by
  rw [Command.run, Identifier.parse_text hu]
  rfl

theorem exists_config_of_withConfigOr {d : Folder} {path : Option String} {log : Log}
    {next : Config → Log → Conversation} {data : Json}
    (h : (d.converse (withConfigOr path log next)).1 = .ok data) :
    ∃ c log', d.config? path = some c ∧ (d.converse (next c log')).1 = .ok data := by
  cases path with
  | none => exact ⟨{}, _, rfl, h⟩
  | some path =>
    simp only [withConfigOr, withConfig, converse] at h
    cases hread : d.read path with
    | unopened reason =>
      rw [hread] at h
      cases h
    | unread reason =>
      rw [hread] at h
      cases h
    | text content =>
      simp only [hread] at h
      cases hparse : Config.parse content with
      | error e =>
        rw [hparse] at h
        cases h
      | ok c =>
        have hconfig : d.config? (some path) = some c := by
          simp only [config?, hread, hparse, Except.toOption]
        simp only [hparse] at h
        cases hlog : c.applyLogging (c.reportLoaded path log) with
        | error e =>
          rw [hlog] at h
          cases h
        | ok log' =>
          rw [hlog] at h
          exact ⟨c, log', hconfig, h⟩

theorem answer_makeIdentifier_hash {c : Config} (hc : c.encoding = .hash) (d : Folder)
    (time : Option Instant) (extras : List String) (content : String) (log : Log) :
    (d.converse (makeIdentifier c time extras content log)).1 =
      .ok (describe (Identifier.ofContent (Text.bytesOf content) time extras)) := by
  unfold makeIdentifier
  split
  · next e log' h =>
    have hok := congrArg Prod.fst h
    rw [Generator.ofConfig_hash hc] at hok
    cases hok
  · next g source log' h =>
    have hok := congrArg Prod.fst h
    rw [Generator.ofConfig_hash hc] at hok
    cases hok
    rfl

/-- A hash identifier that was made is that of the content, at the moment of the timestamp if there
is one. -/
theorem answer_identify_hash {c : Config} (hc : c.encoding = .hash) {d : Folder}
    {timestamp : Option String} {extras : List String} {content : String} {log : Log} {data : Json}
    (h : (d.converse (identify c timestamp extras content log)).1 = .ok data) :
    ∃ time, timestamp.map Rfc3339.parse? = time.map some ∧
      data = describe (Identifier.ofContent (Text.bytesOf content) time extras) := by
  cases timestamp with
  | none =>
    rw [identify, answer_makeIdentifier_hash hc] at h
    exact ⟨none, rfl, (Except.ok.inj h).symm⟩
  | some s =>
    rw [identify] at h
    cases htime : Rfc3339.parse? s with
    | none =>
      rw [htime] at h
      cases h
    | some time =>
      simp only [htime, answer_makeIdentifier_hash hc] at h
      exact ⟨some time, congrArg some htime, (Except.ok.inj h).symm⟩

theorem answer_newIdentifier {d : Folder} {config timestamp : Option String}
    {extras : List String} {content : String} {log : Log} {data : Json}
    (hconfig : (d.config? config).map Config.encoding = some .hash)
    (h : (d.converse ((Command.newIdentifier config timestamp extras content).run log)).1 =
      .ok data) :
    ∃ time, timestamp.map Rfc3339.parse? = time.map some ∧
      data = describe (Identifier.ofContent (Text.bytesOf content) time extras) := by
  obtain ⟨c, log', hfound, h⟩ := exists_config_of_withConfigOr h
  rw [hfound] at hconfig
  exact answer_identify_hash (Option.some.inj hconfig) h

theorem respond?_read (d : Folder) {u : Identifier} (hu : u.WellFormed) :
    d.respond? ["uid", "parse", "--", u.text] = some (.ok (describe u)) ∧
    (shapeOf u.text = .plain → d.respond? ["uid", "parse", u.text] = some (.ok (describe u))) ∧
    (shapeOf u.text = .dashed → d.respond? ["uid", "parse", u.text] = none) := by
  refine ⟨?_, ?_, ?_⟩
  · rw [respond?_of_parse? (parse?_read_separated _), answer_readIdentifier hu]
  · intro hplain
    rw [respond?_of_parse? (parse?_read_plain hplain), answer_readIdentifier hu]
  · intro hdashed
    rw [respond?, parse?_read_dashed hdashed, Option.map_none]

/-- What a call prints that makes a hash identifier is answered again, in any folder, when the
identifier is passed to the reading command after two dashes. Without the dashes the call is refused
if no timestamp was given and the first hash of the content is negative, and in no other case. -/
theorem respond?_printed {d : Folder} {args : List String} {config timestamp : Option String}
    {extras : List String} {content : String} {data : Json}
    (hargs : Command.parse? args = some (.newIdentifier config timestamp extras content))
    (hconfig : (d.config? config).map Config.encoding = some .hash)
    (hnew : d.respond? args = some (.ok data)) :
    ∃ uid, printedIdentifier? data = some uid ∧
      ∀ d' : Folder,
        d'.respond? ["uid", "parse", "--", uid] = some (.ok data) ∧
        d'.respond? ["uid", "parse", uid] =
          if timestamp = none ∧ (HashBase.ofContent (Text.bytesOf content) none).h0.toInt < 0
          then none else some (.ok data) := by
  rw [respond?_of_parse? hargs] at hnew
  obtain ⟨time, htime, rfl⟩ := answer_newIdentifier hconfig (Option.some.inj hnew)
  have hwell := Identifier.wellFormed_ofContentBy HashBase.contentHash (Text.bytesOf content) time
    extras
  refine ⟨_, printedIdentifier?_describe _, fun d' => ?_⟩
  obtain ⟨hseparated, hplain, hdashed⟩ := respond?_read d' hwell
  -- the first call succeeded, so a timestamp that was given is a moment
  have htimeless : time.map Instant.timeOfDay = none ↔ timestamp = none := by
    cases timestamp <;> cases time <;> simp_all
  have hshape := shapeOf_text_hash (.ofContent (Text.bytesOf content) (time.map Instant.timeOfDay))
    (Identifier.mergeExtras extras)
  refine ⟨hseparated, ?_⟩
  by_cases hrefused :
    timestamp = none ∧ (HashBase.ofContent (Text.bytesOf content) none).h0.toInt < 0
  · rw [if_pos ⟨htimeless.2 hrefused.1, hrefused.2⟩] at hshape
    rw [if_pos hrefused]
    exact hdashed hshape
  · rw [if_neg fun h => hrefused ⟨htimeless.1 h.1, h.2⟩] at hshape
    rw [if_neg hrefused]
    exact hplain hshape

theorem respond?_printed_epoch :
    ∃ uid data,
      respond? {} ["uid", "new", "--timestamp", "1970-01-01T00:00:00Z", ""] = some (.ok data) ∧
      printedIdentifier? data = some uid ∧
      respond? {} ["uid", "parse", uid] = some (.ok data) := by
  have hnew : respond? {} ["uid", "new", "--timestamp", "1970-01-01T00:00:00Z", ""] =
      some (.ok (describe (Identifier.ofContent [] (Rfc3339.parse? "1970-01-01T00:00:00Z") []))) :=
    rfl
  obtain ⟨uid, huid, hread⟩ := respond?_printed rfl rfl hnew
  exact ⟨uid, _, hnew, huid, (hread {}).2⟩

/-- The identifier of the empty content starts with a minus sign, and is refused where it is the only
argument. -/
theorem respond?_empty_content :
    ∃ data,
      Command.parse? ["uid", "new", ""] = some (.newIdentifier none none [] "") ∧
      (config? {} none).map Config.encoding = some .hash ∧
      respond? {} ["uid", "new", ""] = some (.ok data) ∧
      printedIdentifier? data = some "-mqby70.-nti4k.-71faxt" ∧
      respond? {} ["uid", "parse", "-mqby70.-nti4k.-71faxt"] = none := by
  have htext : (Identifier.ofContent [] none []).text = "-mqby70.-nti4k.-71faxt" := by
    decide +kernel
  refine ⟨describe (Identifier.ofContent [] none []), rfl, rfl, rfl, ?_, rfl⟩
  rw [printedIdentifier?_describe, htext]

end Folder
end Cli
end ShardQuery
