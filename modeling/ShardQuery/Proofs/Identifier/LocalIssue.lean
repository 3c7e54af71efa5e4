import ShardQuery.Proofs.Identifier.IssueLog
import ShardQuery.Proofs.Identifier.SnowflakeText

/-!
# Snowflakes from one local source

Whatever the order of machines and the course of the clock, the snowflakes that one local source
gives are all different, and those of one machine increase. Each machine counts for itself.
-/

namespace ShardQuery

namespace CounterSource

/-- A local source whose lock is not poisoned. -/
structure LocalInUse (s : CounterSource) : Prop where
  uncached : s.cached = false
  unpoisoned : s.poisoned = false

theorem LocalInUse.note {s : CounterSource} (h : s.LocalInUse) (machine : MachineId) (tick : Tick) :
    (s.note machine tick).LocalInUse :=
  ⟨h.uncached, h.unpoisoned⟩

structure LocalBelowEnd (s : CounterSource) : Prop extends s.LocalInUse where
  millis_ne : ∀ machine last, s.issued.find? machine = some last → last.millis ≠ Tick.lastMillis

theorem LocalBelowEnd.newLocal : LocalBelowEnd .newLocal :=
  ⟨⟨rfl, rfl⟩, fun _ _ h => by cases h⟩

theorem LocalBelowEnd.note {s : CounterSource} (h : s.LocalBelowEnd) {machine : MachineId}
    {tick : Tick} (ht : tick.millis ≠ Tick.lastMillis) : (s.note machine tick).LocalBelowEnd := by
  refine ⟨h.toLocalInUse.note machine tick, ?_⟩
  intro other last hlast
  rw [find?_note] at hlast
  split at hlast
  · cases hlast
    exact ht
  · exact h.millis_ne other last hlast

end CounterSource

namespace SnowflakeCall

variable {σ : Type}

private theorem run_cons_none (cache : CounterCache σ) {r : SnowflakeRequest} (hr : r.target = none)
    (rs : List SnowflakeRequest) (m : Fleet.Member σ) :
    ∃ e, run (Fleet.nextTick cache) (r :: rs) m =
      ⟨r, [], .error e⟩ :: run (Fleet.nextTick cache) rs m := by
  obtain ⟨e, he⟩ :=
    SnowflakeRequest.snowflake_of_target_none (Fleet.nextTick cache).recorded hr (m, [])
  exact ⟨e, by rw [run, he]⟩

private theorem run_cons_some (cache : CounterCache σ) {s : CounterSource} (hs : s.LocalInUse)
    (env : σ) {r : SnowflakeRequest} {machine : MachineId} {now : UInt64}
    (hr : r.target = some (machine, now)) {tick : Tick}
    (htick : Tick.next (s.issued.find? machine) now = some tick) (rs : List SnowflakeRequest) :
    run (Fleet.nextTick cache) (r :: rs) (s, env) =
      ⟨r, [(machine, tick)], r.resultOf machine tick⟩ ::
        run (Fleet.nextTick cache) rs (s.note machine tick, env) := by
  rw [run, SnowflakeRequest.snowflake_of_target _ hr]
  simp [NextTick.recorded, Fleet.nextTick, CounterSource.next, hs.uncached, CounterSource.nextLocal,
    hs.unpoisoned, htick]

def StaysBelowEnd (calls : List SnowflakeCall) : Prop :=
  ∀ call ∈ calls, ∀ i ∈ call.issued, i.2.millis ≠ Tick.lastMillis

section

variable (cache : CounterCache σ) (env : σ) (rs : List SnowflakeRequest) {s : CounterSource}

/-- The ticks of one machine increase, from the last one that the source holds on. -/
private theorem run_increasing (hs : s.LocalBelowEnd)
    (hend : StaysBelowEnd (run (Fleet.nextTick cache) rs (s, env))) :
    (∀ call ∈ run (Fleet.nextTick cache) rs (s, env), ∀ i ∈ call.issued, ∀ last,
      s.issued.find? i.1 = some last → last < i.2) ∧
    (run (Fleet.nextTick cache) rs (s, env)).Pairwise fun a b =>
      ∀ i ∈ a.issued, ∀ j ∈ b.issued, i.1 = j.1 → i.2 < j.2 := by
  -- the first part carries the induction: it bounds all calls to come by the source as it is
  induction rs generalizing s with
  | nil => simp [run]
  | cons r rs ih =>
    cases hr : r.target with
    | none =>
      obtain ⟨e, he⟩ := run_cons_none cache hr rs (s, env)
      rw [he] at hend ⊢
      obtain ⟨hlast, hpair⟩ := ih hs fun call hcall => hend call (List.mem_cons_of_mem _ hcall)
      refine ⟨?_, List.pairwise_cons.2 ⟨?_, hpair⟩⟩
      · intro call hcall
        rcases List.mem_cons.1 hcall with rfl | hcall
        · simp
        · exact hlast call hcall
      · simp
    | some target =>
      obtain ⟨machine, now⟩ := target
      obtain ⟨tick, htick⟩ := Tick.exists_next (hs.millis_ne machine) now
      rw [run_cons_some cache hs.toLocalInUse env hr htick rs] at hend ⊢
      have hne : tick.millis ≠ Tick.lastMillis :=
        hend _ List.mem_cons_self (machine, tick) (by simp)
      obtain ⟨hlast, hpair⟩ := ih (hs.note hne) fun call hcall =>
        hend call (List.mem_cons_of_mem _ hcall)
      have hfirst : ∀ last, s.issued.find? machine = some last → last < tick := by
        intro last hfind
        rw [hfind] at htick
        exact Tick.lt_of_next htick
      -- every later tick of this machine is above the one just issued
      have habove : ∀ call ∈ run (Fleet.nextTick cache) rs (s.note machine tick, env),
          ∀ i ∈ call.issued, machine = i.1 → tick < i.2 := by
        intro call hcall i hi hmachine
        apply hlast call hcall i hi tick
        rw [CounterSource.find?_note, if_pos hmachine.symm]
      refine ⟨?_, List.pairwise_cons.2 ⟨?_, hpair⟩⟩
      · intro call hcall i hi last hfind
        rcases List.mem_cons.1 hcall with rfl | hcall
        · rw [List.mem_singleton.1 hi] at hfind ⊢
          exact hfirst last hfind
        · by_cases hmachine : machine = i.1
          · subst hmachine
            exact Tick.lt_trans (hfirst last hfind) (habove call hcall i hi rfl)
          · apply hlast call hcall i hi last
            rw [CounterSource.find?_note, if_neg (Ne.symm hmachine)]
            exact hfind
      · intro call hcall i hi j hj hmachine
        rw [List.mem_singleton.1 hi] at hmachine ⊢
        exact habove call hcall j hj hmachine

private theorem run_returned (hs : s.LocalBelowEnd)
    (hend : StaysBelowEnd (run (Fleet.nextTick cache) rs (s, env))) :
    ∀ call ∈ run (Fleet.nextTick cache) rs (s, env), ∀ u, call.result = .ok u →
      ∃ b tick, u.base = .snowflake b ∧ call.issued = [(b.machine, tick)] ∧
        b.millis.val = tick.millis.toNat ∧ b.counter = tick.counter ∧
        call.request.machine = some (b.machine.val : Int) ∧
        call.request.time.millis ≤ b.millis.val := by
  induction rs generalizing s with
  | nil => simp [run]
  | cons r rs ih =>
    cases hr : r.target with
    | none =>
      obtain ⟨e, he⟩ := run_cons_none cache hr rs (s, env)
      rw [he] at hend ⊢
      intro call hcall u hu
      rcases List.mem_cons.1 hcall with rfl | hcall
      · cases hu
      · exact ih hs (fun call hcall => hend call (List.mem_cons_of_mem _ hcall)) call hcall u hu
    | some target =>
      obtain ⟨machine, now⟩ := target
      obtain ⟨tick, htick⟩ := Tick.exists_next (hs.millis_ne machine) now
      rw [run_cons_some cache hs.toLocalInUse env hr htick rs] at hend ⊢
      have hnow : now ≤ tick.millis := Tick.now_le_of_next htick
      have hne : tick.millis ≠ Tick.lastMillis :=
        hend _ List.mem_cons_self (machine, tick) (by simp)
      intro call hcall u hu
      rcases List.mem_cons.1 hcall with rfl | hcall
      · obtain ⟨b, hb, hmachine, hmillis, hcounter⟩ := SnowflakeRequest.resultOf_eq_ok hu
        refine ⟨b, tick, hb, by rw [hmachine], hmillis, hcounter, ?_, ?_⟩
        · rw [hmachine]
          exact SnowflakeRequest.machine_of_target hr
        · rw [SnowflakeRequest.millis_of_target hr, hmillis]
          exact Int.ofNat_le.2 (UInt64.le_iff_toNat_le.1 hnow)
      · exact ih (hs.note hne) (fun call hcall => hend call (List.mem_cons_of_mem _ hcall))
          call hcall u hu

/-- The ticks of a machine are those it gets when the other machines do not call at all. -/
private theorem issued_run (machine : MachineId) {t : CounterSource} (hs : s.LocalBelowEnd)
    (ht : t.LocalInUse) (hst : t.issued.find? machine = s.issued.find? machine)
    (hend : StaysBelowEnd (run (Fleet.nextTick cache) rs (s, env))) :
    ((run (Fleet.nextTick cache) rs (s, env)).flatMap issued).filter (fun i => i.1 = machine) =
      (run (Fleet.nextTick cache) (rs.filter fun r => r.machine = some (machine.val : Int))
        (t, env)).flatMap issued := by
  induction rs generalizing s t with
  | nil => rfl
  | cons r rs ih =>
    cases hr : r.target with
    | none =>
      obtain ⟨e, he⟩ := run_cons_none cache hr rs (s, env)
      rw [he] at hend
      have htail := ih hs ht hst fun call hcall => hend call (List.mem_cons_of_mem _ hcall)
      rw [he, List.filter_cons]
      split
      · obtain ⟨e', he'⟩ := run_cons_none cache hr
          (rs.filter fun r => r.machine = some (machine.val : Int)) (t, env)
        rw [he']
        simpa using htail
      · simpa using htail
    | some target =>
      obtain ⟨other, now⟩ := target
      have hother := SnowflakeRequest.machine_of_target hr
      obtain ⟨tick, htick⟩ := Tick.exists_next (hs.millis_ne other) now
      have hcons := run_cons_some cache hs.toLocalInUse env hr htick rs
      rw [hcons] at hend
      have hne : tick.millis ≠ Tick.lastMillis :=
        hend _ List.mem_cons_self (other, tick) (by simp)
      have hrest := fun call hcall => hend call (List.mem_cons_of_mem _ hcall)
      rw [hcons, List.filter_cons]
      by_cases h : other = machine
      · subst h
        rw [if_pos (by simp [hother]), run_cons_some cache ht env hr (by rw [hst, htick])]
        have htail := ih (hs.note hne) (ht.note other tick)
          (by rw [CounterSource.find?_note, CounterSource.find?_note, hst]) hrest
        simp only [List.flatMap_cons, List.filter_append, htail]
        simp
      · have hcalled : ¬ r.machine = some (machine.val : Int) := by
          rw [hother]
          intro heq
          exact h (Fin.ext (Int.ofNat.inj (Option.some.inj heq)))
        rw [if_neg (by simpa using hcalled)]
        have htail := ih (hs.note hne) ht
          (by rw [CounterSource.find?_note, if_neg (Ne.symm h)]; exact hst) hrest
        simp only [List.flatMap_cons, List.filter_append, htail]
        simp [h]

end

private theorem order_lt {a b : Snowflake} {x y : Tick} (hmachine : a.machine = b.machine)
    (hx : a.millis.val = x.millis.toNat ∧ a.counter = x.counter)
    (hy : b.millis.val = y.millis.toNat ∧ b.counter = y.counter) (hxy : x < y) :
    (IdentifierBase.snowflake a).order (.snowflake b) = .lt := by
  have hself : compare a.machine b.machine = .eq := by
    rw [hmachine]
    exact Std.ReflCmp.compare_self
  change Snowflake.order a b = .lt
  rw [Snowflake.order, compareLex, compareOn, hself, Ordering.eq_then, compareLex, compareOn,
    compareOn]
  rcases Tick.lt_def.1 hxy with hlt | ⟨heq, hlt⟩
  · have hmillis : compare a.millis b.millis = .lt := by
      apply Nat.compare_eq_lt.2
      rw [hx.1, hy.1]
      exact UInt64.lt_iff_toNat_lt.1 hlt
    rw [hmillis, Ordering.lt_then]
  · have hmillis : compare a.millis b.millis = .eq := by
      apply Nat.compare_eq_eq.2
      rw [hx.1, hy.1, heq]
    have hcounter : compare a.counter b.counter = .lt := by
      rw [hx.2, hy.2]
      exact Std.compare_eq_lt.2 hlt
    rw [hmillis, Ordering.eq_then, hcounter]

private theorem result_eq_ok {call : SnowflakeCall} {u : Identifier}
    (h : call.result.toOption = some u) : call.result = .ok u := by
  cases hresult : call.result with
  | error e =>
    rw [hresult] at h
    cases h
  | ok v =>
    rw [hresult] at h
    cases h
    rfl

/-- The bases of one machine that are returned are ordered as the ticks they hold. -/
private theorem run_ordered (cache : CounterCache σ) (env : σ) (rs : List SnowflakeRequest)
    {s : CounterSource} (hs : s.LocalBelowEnd)
    (hend : StaysBelowEnd (run (Fleet.nextTick cache) rs (s, env))) :
    ((run (Fleet.nextTick cache) rs (s, env)).filterMap fun call => call.result.toOption).Pairwise fun u v =>
      ∀ a b, u.base = .snowflake a → v.base = .snowflake b → a.machine = b.machine →
        u.base.order v.base = .lt := by
  have hreturned := run_returned cache env rs hs hend
  rw [List.pairwise_filterMap]
  refine (run_increasing cache env rs hs hend).2.imp_of_mem ?_
  intro first second hfirst hsecond hticks u hu v hv a b ha hb hmachine
  obtain ⟨a', x, ha', hx, hxmillis, hxcounter, -⟩ := hreturned first hfirst u (result_eq_ok hu)
  obtain ⟨b', y, hb', hy, hymillis, hycounter, -⟩ := hreturned second hsecond v (result_eq_ok hv)
  cases ha.symm.trans ha'
  cases hb.symm.trans hb'
  have hxy : x < y := hticks (a.machine, x) (by simp [hx]) (b.machine, y) (by simp [hy]) hmachine
  rw [ha, hb]
  exact order_lt hmachine ⟨hxmillis, hxcounter⟩ ⟨hymillis, hycounter⟩ hxy

/-- Calls on one local source, for any machines, moments and extras in any order. As long as no
tick in the last millisecond of all is issued, the snowflakes returned have different bases,
those of one machine increase in the order of issue, each lies at or after the moment asked for,
and the ticks of a machine are those it gets when only its own calls are made. -/
theorem run_newLocal (cache : CounterCache σ) (env : σ) (rs : List SnowflakeRequest)
    (hend : ∀ call ∈ run (Fleet.nextTick cache) rs (.newLocal, env), ∀ i ∈ call.issued,
      i.2.millis ≠ Tick.lastMillis) :
    let calls := run (Fleet.nextTick cache) rs (.newLocal, env)
    let returned := calls.filterMap fun call => call.result.toOption
    (returned.map fun u => u.base.text).Nodup ∧
    (returned.Pairwise fun u v => ∀ a b, u.base = .snowflake a → v.base = .snowflake b →
      a.machine = b.machine → u.order v = .lt) ∧
    (∀ call ∈ calls, ∀ u, call.result = .ok u → ∃ b, u.base = .snowflake b ∧
      call.request.machine = some (b.machine.val : Int) ∧
      call.request.time.millis ≤ b.millis.val) ∧
    ∀ machine, (calls.flatMap issued).filter (fun i => i.1 = machine) =
      (run (Fleet.nextTick cache) (rs.filter fun r => r.machine = some (machine.val : Int))
        (.newLocal, env)).flatMap issued := by
  intro calls returned
  have hreturned := run_returned cache env rs .newLocal hend
  have hordered := run_ordered cache env rs .newLocal hend
  have hsnowflake : ∀ u ∈ returned, ∃ b, u.base = .snowflake b := by
    intro u hu
    obtain ⟨call, hcall, hu⟩ := List.mem_filterMap.1 hu
    obtain ⟨b, -, hb, -⟩ := hreturned call hcall u (result_eq_ok hu)
    exact ⟨b, hb⟩
  refine ⟨?_, ?_, ?_, ?_⟩
  · rw [List.Nodup, List.pairwise_map]
    refine hordered.imp_of_mem ?_
    intro u v hu hv hlt htext
    obtain ⟨a, ha⟩ := hsnowflake u hu
    obtain ⟨b, hb⟩ := hsnowflake v hv
    rw [ha, hb] at htext
    have hab : a = b := Snowflake.text_injective htext
    -- one base is not below itself
    have hlt := hlt a b ha hb (by rw [hab])
    rw [ha, hb, hab] at hlt
    have hself : (IdentifierBase.snowflake b).order (.snowflake b) = .eq :=
      (Std.ReflCmp.compare_self : Snowflake.order b b = .eq)
    rw [hself] at hlt
    cases hlt
  · refine hordered.imp ?_
    intro u v hlt a b ha hb hmachine
    rw [Identifier.order, hlt a b ha hb hmachine, Ordering.lt_then]
  · intro call hcall u hu
    obtain ⟨b, -, hb, -, -, -, hmachine, hmillis⟩ := hreturned call hcall u hu
    exact ⟨b, hb, hmachine, hmillis⟩
  · intro machine
    exact issued_run cache env rs machine .newLocal ⟨rfl, rfl⟩ rfl hend

def rollbackRequests : List SnowflakeRequest :=
  [{ machine := some 1, time := .ofMillis 1000, millis_lt := by decide },
   { machine := some 2, time := .ofMillis 1000, extras := ["a"], millis_lt := by decide },
   { machine := none, time := .ofMillis 1000, millis_lt := by decide },
   { machine := some 1, time := .ofMillis 400, extras := ["b"], millis_lt := by decide },
   { machine := some 2, time := .ofMillis (-1), millis_lt := by decide },
   { machine := some 1, time := .ofMillis 1000, millis_lt := by decide }]

theorem run_newLocal_rollback :
    let calls := run (Fleet.nextTick MemoryCache.cache) rollbackRequests (.newLocal, {})
    let returned := calls.filterMap fun call => call.result.toOption
    (∀ call ∈ calls, ∀ i ∈ call.issued, i.2.millis ≠ Tick.lastMillis) ∧ returned.length = 4 ∧
      (returned.map fun u => u.base.text).Nodup := by
  intro calls returned
  have hend : ∀ call ∈ calls, ∀ i ∈ call.issued, i.2.millis ≠ Tick.lastMillis := by decide
  exact ⟨hend, by decide, (run_newLocal MemoryCache.cache {} rollbackRequests hend).1⟩

end SnowflakeCall
end ShardQuery
