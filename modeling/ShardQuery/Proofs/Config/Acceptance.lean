import ShardQuery.Identifier.Generator

/-!
# Configurations that are accepted

A configuration is checked when it is read, and its settings are checked again where they are used:
the level by the log, the machine by the generator of identifiers, the cap by the queries. Both
sides agree. What was accepted does not fail later but for a cache that is required and not given,
and what would fail for its machine, its cap or its level is refused.
-/

namespace ShardQuery

theorem MachineId.require_ne_cacheMissing (machine : Option Int) :
    require machine ≠ .error (.configuration .cacheMissing) := by
  unfold require check
  split
  · split
    · split
      · rintro ⟨⟩
      · rintro ⟨⟩
    · rintro ⟨⟩
  · rintro ⟨⟩

namespace Generator

variable {c : Config} {e : IdentifierError}

theorem ofConfig_hash (h : c.encoding = .hash) (hasCache : Bool) (log : Log) :
    (ofConfig c hasCache log).1 = .ok (.hash, .newLocal) := by
  simp [ofConfig, h]

theorem ofConfig_of_error (h : c.encoding = .snowflake)
    (hmachine : MachineId.require c.machine = .error e) (hasCache : Bool) (log : Log) :
    (ofConfig c hasCache log).1 = .error e := by
  simp [ofConfig, h, hmachine]

theorem ofConfig_cached (h : c.encoding = .snowflake) {machine : MachineId}
    (hmachine : MachineId.require c.machine = .ok machine) (log : Log) :
    (ofConfig c true log).1 = .ok (.snowflake machine, .newCached) := by
  simp [ofConfig, h, hmachine]

theorem ofConfig_uncached (h : c.encoding = .snowflake) {machine : MachineId}
    (hmachine : MachineId.require c.machine = .ok machine) (log : Log) :
    (ofConfig c false log).1 =
      if c.cacheRequired then .error (.configuration .cacheMissing)
      else .ok (.snowflake machine, .newLocal) := by
  cases hcache : c.cacheRequired <;> simp [ofConfig, h, hmachine, hcache]

end Generator

namespace Config

variable {c : Config} {s : String}

def ofText? (s : String) : Option Config := (Json.read? s).bind ofJson?

/-- Later uses of a configuration do as it says, and none fails but for a cache that is missing. -/
structure Usable (c : Config) : Prop where
  logging : ∀ log, ∃ least, c.applyLogging log = .ok { log with least }
  unlimited : c.resultCap = none ↔ c.maxResults = -1
  capped : c.maxResults ≠ -1 → ∃ cap : Nat, c.resultCap = some cap ∧ (cap : Int) = c.maxResults
  cached : ∀ log, ∃ g source,
    (Generator.ofConfig c true log).1 = .ok (g, source) ∧ g.encoding = c.encoding
  uncached : ∀ log, (∃ e, (Generator.ofConfig c false log).1 = .error e) ↔
    c.encoding = .snowflake ∧ c.cacheRequired = true

/-- A later use of a configuration fails because of its machine, it has a negative cap that does
not stand for none, or its level is unknown to the log. -/
def Breaks (c : Config) : ConfigFault → Prop
  | .machine e => e ≠ .configuration .cacheMissing ∧
      ∃ hasCache log, (Generator.ofConfig c hasCache log).1 = .error e
  | .maxResults value => value = c.maxResults ∧ value < 0 ∧ value ≠ -1
  | .logLevel name => ∃ log, c.applyLogging log = .error (.invalid (.logLevel name))

theorem breaks_machine_iff {e : IdentifierError} :
    c.Breaks (.machine e) ↔
      c.encoding = .snowflake ∧ MachineId.require c.machine = .error e := by
  constructor
  · intro h
    obtain ⟨hne, hasCache, log, hfails⟩ := h
    cases hencoding : c.encoding with
    | hash =>
      rw [Generator.ofConfig_hash hencoding] at hfails
      cases hfails
    | snowflake =>
      refine ⟨rfl, ?_⟩
      cases hmachine : MachineId.require c.machine with
      | error e' =>
        rw [Generator.ofConfig_of_error hencoding hmachine] at hfails
        cases hfails
        rfl
      | ok machine =>
        cases hasCache with
        | true =>
          rw [Generator.ofConfig_cached hencoding hmachine] at hfails
          cases hfails
        | false =>
          rw [Generator.ofConfig_uncached hencoding hmachine] at hfails
          split at hfails
          · cases hfails
            exact absurd rfl hne
          · cases hfails
  · intro h
    refine ⟨?_, true, {}, Generator.ofConfig_of_error h.1 h.2 true {}⟩
    intro hmissing
    exact MachineId.require_ne_cacheMissing c.machine (hmissing ▸ h.2)

theorem breaks_maxResults_iff {value : Int} :
    c.Breaks (.maxResults value) ↔ value = c.maxResults ∧ value < -1 := by
  unfold Breaks
  omega

theorem breaks_logLevel_iff {name : String} :
    c.Breaks (.logLevel name) ↔ c.severity = .error name := by
  unfold Breaks applyLogging
  cases c.severity with
  | ok least => simp
  | error other => simp

theorem validate_of_breaks_machine {e : IdentifierError} (h : c.Breaks (.machine e)) :
    c.validate = .error (.machine e) := by
  obtain ⟨hencoding, hmachine⟩ := breaks_machine_iff.1 h
  unfold validate
  rw [if_pos hencoding, hmachine]
  rfl

theorem exists_machine (h : ∀ e, ¬ c.Breaks (.machine e)) (hencoding : c.encoding = .snowflake) :
    ∃ m, MachineId.require c.machine = .ok m := by
  cases hrequire : MachineId.require c.machine with
  | ok m => exact ⟨m, rfl⟩
  | error e => exact absurd (breaks_machine_iff.2 ⟨hencoding, hrequire⟩) (h e)

theorem validate_of_machine (h : ∀ e, ¬ c.Breaks (.machine e)) :
    c.validate =
      if c.maxResults < -1 then .error (.maxResults c.maxResults)
      else match c.severity with
        | .ok _ => .ok ()
        | .error name => .error (.logLevel name) := by
  unfold validate
  by_cases hencoding : c.encoding = .snowflake
  · obtain ⟨m, hm⟩ := exists_machine h hencoding
    rw [if_pos hencoding, hm]
    by_cases hcap : c.maxResults < -1 <;> simp only [hcap, if_true, if_false] <;> rfl
  · rw [if_neg hencoding]
    by_cases hcap : c.maxResults < -1 <;> simp only [hcap, if_true, if_false] <;> rfl

theorem validate_cases (c : Config) :
    (c.validate = .ok () ∧ ∀ fault, ¬ c.Breaks fault) ∨
      ∃ fault, c.validate = .error fault ∧ c.Breaks fault := by
  by_cases hmachine : ∃ e, c.Breaks (.machine e)
  · obtain ⟨e, he⟩ := hmachine
    exact Or.inr ⟨.machine e, validate_of_breaks_machine he, he⟩
  · have hmachine : ∀ e, ¬ c.Breaks (.machine e) := fun e he => hmachine ⟨e, he⟩
    rw [validate_of_machine hmachine]
    by_cases hcap : c.maxResults < -1
    · refine Or.inr ⟨.maxResults c.maxResults, if_pos hcap, ?_⟩
      exact breaks_maxResults_iff.2 ⟨rfl, hcap⟩
    · rw [if_neg hcap]
      cases hlevel : c.severity with
      | error name => exact Or.inr ⟨.logLevel name, rfl, breaks_logLevel_iff.2 hlevel⟩
      | ok least =>
        refine Or.inl ⟨rfl, ?_⟩
        intro fault
        cases fault with
        | machine e => exact hmachine e
        | maxResults value =>
          intro hbreaks
          obtain ⟨rfl, hvalue⟩ := breaks_maxResults_iff.1 hbreaks
          exact hcap hvalue
        | logLevel name =>
          intro hbreaks
          rw [breaks_logLevel_iff, hlevel] at hbreaks
          cases hbreaks

theorem resultCap_eq_none_iff : c.resultCap = none ↔ c.maxResults < 0 := by
  unfold resultCap
  split <;> simp_all

theorem resultCap_of_nonneg (h : 0 ≤ c.maxResults) :
    c.resultCap = some c.maxResults.toNat := if_neg (Int.not_lt.2 h)

theorem Usable.not_breaks (h : c.Usable) (fault : ConfigFault) : ¬ c.Breaks fault := by
  intro hbreaks
  cases fault with
  | machine e =>
    obtain ⟨hencoding, hmachine⟩ := breaks_machine_iff.1 hbreaks
    obtain ⟨g, source, hmade, -⟩ := h.cached {}
    rw [Generator.ofConfig_of_error hencoding hmachine] at hmade
    cases hmade
  | maxResults value =>
    obtain ⟨rfl, hvalue⟩ := breaks_maxResults_iff.1 hbreaks
    have hnone : c.resultCap = none := resultCap_eq_none_iff.2 (by omega)
    have hminus := h.unlimited.1 hnone
    omega
  | logLevel name =>
    obtain ⟨log, hfails⟩ := hbreaks
    obtain ⟨least, hset⟩ := h.logging log
    rw [hset] at hfails
    cases hfails

theorem usable_of_not_breaks (h : ∀ fault, ¬ c.Breaks fault) : c.Usable := by
  have hcap : ¬ c.maxResults < -1 := fun hlt => h _ (breaks_maxResults_iff.2 ⟨rfl, hlt⟩)
  have hmachine := exists_machine fun e => h (.machine e)
  constructor
  · intro log
    cases hlevel : c.severity with
    | ok least => exact ⟨least, by simp [applyLogging, hlevel]⟩
    | error name => exact absurd (breaks_logLevel_iff.2 hlevel) (h _)
  · rw [resultCap_eq_none_iff]
    omega
  · intro hne
    have hnonneg : 0 ≤ c.maxResults := by omega
    exact ⟨_, resultCap_of_nonneg hnonneg, Int.toNat_of_nonneg hnonneg⟩
  · intro log
    cases hencoding : c.encoding with
    | hash => exact ⟨.hash, .newLocal, Generator.ofConfig_hash hencoding true log, rfl⟩
    | snowflake =>
      obtain ⟨m, hm⟩ := hmachine hencoding
      exact ⟨.snowflake m, .newCached, Generator.ofConfig_cached hencoding hm log, rfl⟩
  · intro log
    cases hencoding : c.encoding with
    | hash => simp [Generator.ofConfig_hash hencoding]
    | snowflake =>
      obtain ⟨m, hm⟩ := hmachine hencoding
      rw [Generator.ofConfig_uncached hencoding hm]
      cases c.cacheRequired <;> simp

theorem parse_of_ofText?_eq_none (h : ofText? s = none) : parse s = .error .notJson := by
  unfold ofText? at h
  simp only [parse, h]

theorem parse_of_valid (h : ofText? s = some c) (hvalid : c.validate = .ok ()) :
    parse s = .ok c := by
  unfold ofText? at h
  simp only [parse, h, hvalid]

theorem parse_of_invalid {fault : ConfigFault} (h : ofText? s = some c)
    (hvalid : c.validate = .error fault) : parse s = .error (.invalid fault) := by
  unfold ofText? at h
  simp only [parse, h, hvalid]

/-- A configuration is accepted exactly when every later use of it does as it says and only a
missing cache can still stand in the way. One that is well typed is refused exactly when a later
use would fail because of its machine, its cap or its level, and for such a reason. -/
theorem parse_accepts_usable (s : String) :
    (∀ c, parse s = .ok c ↔ ofText? s = some c ∧ c.Usable) ∧
    ∀ c, ofText? s = some c →
      ((∃ fault, c.Breaks fault) ↔
        ∃ fault, parse s = .error (.invalid fault) ∧ c.Breaks fault) := by
  constructor
  · intro c
    cases htext : ofText? s with
    | none => simp [parse_of_ofText?_eq_none htext]
    | some c' =>
      rw [Option.some.injEq]
      rcases c'.validate_cases with ⟨hvalid, hnone⟩ | ⟨fault, hvalid, hbreaks⟩
      · rw [parse_of_valid htext hvalid, Except.ok.injEq]
        constructor
        · intro h
          exact ⟨h, h ▸ usable_of_not_breaks hnone⟩
        · intro h
          exact h.1
      · rw [parse_of_invalid htext hvalid]
        constructor
        · intro h
          cases h
        · intro h
          exact absurd hbreaks (h.1 ▸ h.2.not_breaks fault)
  · intro c htext
    constructor
    · intro h
      rcases c.validate_cases with ⟨-, hnone⟩ | ⟨fault, hvalid, hbreaks⟩
      · obtain ⟨fault, hbreaks⟩ := h
        exact absurd hbreaks (hnone fault)
      · exact ⟨fault, parse_of_invalid htext hvalid, hbreaks⟩
    · intro h
      obtain ⟨fault, -, hbreaks⟩ := h
      exact ⟨fault, hbreaks⟩

/-- The greatest machine is accepted and everything made from the configuration works; the machine
after it is refused, since no generator is made for it. -/
theorem parse_accepts_usable_machine :
    (∃ c, parse "\x7b\"uid_type\":\"snowflake\",\"machine_id\":1048575,\"log_level\":\"wArN\"\x7d" =
        .ok c ∧ c.Usable) ∧
      ∃ fault, parse "\x7b\"uid_type\":\"snowflake\",\"machine_id\":1048576\x7d" =
        .error (.invalid fault) := by
  have hgreatest :
      ofText? "\x7b\"uid_type\":\"snowflake\",\"machine_id\":1048575,\"log_level\":\"wArN\"\x7d" =
        some { encoding := .snowflake, machine := some 1048575, logLevel := "wArN" } := by
    decide +kernel
  have hnext : ofText? "\x7b\"uid_type\":\"snowflake\",\"machine_id\":1048576\x7d" =
      some { encoding := .snowflake, machine := some 1048576 } := by
    decide +kernel
  have hbreaks : Breaks { encoding := .snowflake, machine := some 1048576 }
      (.machine (.configuration (.machineOutOfRange 1048576))) :=
    breaks_machine_iff.2 ⟨rfl, rfl⟩
  have haccepted := parse_of_valid hgreatest rfl
  obtain ⟨fault, hrefused, -⟩ := ((parse_accepts_usable _).2 _ hnext).1 ⟨_, hbreaks⟩
  exact ⟨⟨_, haccepted, (((parse_accepts_usable _).1 _).1 haccepted).2⟩, fault, hrefused⟩

end Config
end ShardQuery
