import Mathlib.Data.List.Forall2
import Mathlib.Data.List.ReduceOption
import ShardQuery.Proofs.Chunked.Chapters

/-!
# What is asked of the partition and the planner

The record of a run has a prologue, in which the partition is given the base query and may observe
its results, and then goes in rounds: the partition is asked for a chunk, which is planned at once
and read. It is asked for the next one until it has no more. Which queries are planned, and under
which settings, can be read off what the partition was asked.
-/

namespace ShardQuery

namespace QuerySettings

/-- The same query, but that the syntax of its expression is the one of chunks. -/
structure InChunkSyntax (r q : QuerySettings) : Prop where
  id_eq : r.id = q.id
  name_eq : r.name = q.name
  expression_eq : r.expression = q.expression
  syntax_eq : r.get? "query.syntax" = some "JEXL"
  get?_eq {key : String} : key ≠ "query.syntax" → r.get? key = q.get? key

theorem forChunk_inChunkSyntax (q : QuerySettings) : q.forChunk.InChunkSyntax q where
  id_eq := rfl
  name_eq := rfl
  expression_eq := rfl
  syntax_eq := (OrderedMap.find?_insert ..).trans (if_pos rfl)
  get?_eq hkey := (OrderedMap.find?_insert ..).trans (if_neg hkey)

theorem forChunk_forChunk (q : QuerySettings) : q.forChunk.forChunk = q.forChunk :=
  congrArg (QuerySettings.mk q.id q.name q.expression) (OrderedMap.insert_insert ..)

end QuerySettings

namespace Call

@[simp]
def isBased : Call → Bool
  | based _ => true
  | _ => false

@[simp]
def isObserved : Call → Bool
  | observed _ => true
  | _ => false

@[simp]
def isPreparation (call : Call) : Bool := call.isBased || call.isObserved

@[simp]
def isReading : Call → Bool
  | pulled _ | released => true
  | _ => false

def asked? : Call → Option (Option QuerySettings)
  | asked chunk => some chunk
  | _ => none

def planned? : Call → Option QuerySettings
  | planned q _ _ => some q
  | _ => none

end Call

def Unprepared (calls : List Call) : Prop := ∀ call ∈ calls, call.isPreparation = false

namespace Unprepared

variable {calls : List Call} (h : Unprepared calls)

include h

theorem countP_isBased : calls.countP Call.isBased = 0 :=
  List.countP_eq_zero.2 fun call hcall => by
    have hcall := h call hcall
    simp_all

theorem countP_isObserved : calls.countP Call.isObserved = 0 :=
  List.countP_eq_zero.2 fun call hcall => by
    have hcall := h call hcall
    simp_all

end Unprepared

def Readings (calls : List Call) : Prop := ∀ call ∈ calls, call.isReading = true

namespace Readings

theorem singleton {call : Call} (h : call.isReading = true) : Readings [call] :=
  List.forall_mem_singleton.2 h

variable {calls : List Call} (h : Readings calls)

include h

private theorem filterMap_eq_nil {α : Type} {f : Call → Option α}
    (hf : ∀ call, call.isReading = true → f call = none) : calls.filterMap f = [] :=
  List.filterMap_eq_nil_iff.2 fun call hcall => hf call (h call hcall)

theorem asked?_eq_nil : calls.filterMap Call.asked? = [] :=
  h.filterMap_eq_nil fun call hcall => by cases call <;> first | rfl | cases hcall

theorem planned?_eq_nil : calls.filterMap Call.planned? = [] :=
  h.filterMap_eq_nil fun call hcall => by cases call <;> first | rfl | cases hcall

theorem unprepared : Unprepared calls := fun call hcall => by
  have hreading := h call hcall
  cases call <;> first | rfl | cases hreading

end Readings

variable {i : Inquiry} {wants : Bool}

/-- The calls before a chunk is asked for. A partition that wants to observe the results of the base
query has them planned and scanned for it. -/
inductive Prologue (i : Inquiry) (wants : Bool) : List Call → Prop where
  | based (h : wants = false) : Prologue i wants [.based i.base]
  | planned (h : wants = true) (answer : Except ScanError Plan) :
      Prologue i wants [.based i.base, .planned i.base i.authorizations answer]
  | refused (h : wants = true) (plan : Plan) (e : ScanError) :
      Prologue i wants [.based i.base, .planned i.base i.authorizations (.ok plan),
        .scanned plan.table plan.authorizations plan.ranges (some e)]
  | observed (h : wants = true) {plan : Plan} (hplan : plan.hasWork = true) {readings : List Call}
      (hreadings : Readings readings) :
      Prologue i wants ([.based i.base, .planned i.base i.authorizations (.ok plan),
        .scanned plan.table plan.authorizations plan.ranges none, .observed plan] ++ readings)

/-- The calls from the first time on that a chunk is asked for, and whether it was the last. -/
inductive Rounds (i : Inquiry) : List Call → Bool → Prop where
  | unasked : Rounds i [] true
  | first (chunk : Option QuerySettings) {later : List Call} {f : Fate}
      (hturn : Fate.Turn i (.waiting chunk) later f) : Rounds i (.asked chunk :: later) false
  | read {calls : List Call} {closed : Bool} (h : Rounds i calls closed) {call : Call}
      (hcall : call.isReading = true) : Rounds i (calls ++ [call]) closed
  | further {calls : List Call} (h : Rounds i calls false) (q : QuerySettings) {later : List Call}
      {f : Fate} (hturn : Fate.Turn i (.waiting (some q)) later f) :
      Rounds i (calls ++ .asked (some q) :: later) false
  | last {calls : List Call} (h : Rounds i calls false) : Rounds i (calls ++ [.asked none]) true

/-- The chunks of a partition that answered so: the base query stands in for the first. -/
def Inquiry.chunks (i : Inquiry) : List (Option QuerySettings) → List QuerySettings
  | [] => []
  | first :: later => first.getD i.base :: later.reduceOption

theorem Inquiry.chunks_concat (i : Inquiry) {answers : List (Option QuerySettings)}
    (h : answers ≠ []) (answer : Option QuerySettings) :
    i.chunks (answers ++ [answer]) = i.chunks answers ++ answer.toList := by
  obtain ⟨first, later, rfl⟩ := List.exists_cons_of_ne_nil h
  rw [List.cons_append, chunks, chunks, List.cons_append, List.reduceOption_append]
  cases answer <;> rfl

namespace Fate.Turn

variable {chunk : Option QuerySettings} {later : List Call} {f : Fate}
  (h : Turn i (.waiting chunk) later f)

include h

/-- A chunk is planned before anything else is done for it. -/
theorem exists_planned :
    ∃ answer rest, later = .planned (i.query chunk) i.authorizations answer :: rest := by
  cases h <;> exact ⟨_, _, rfl⟩

theorem asked?_eq : (Call.asked chunk :: later).filterMap Call.asked? = [chunk] := by
  cases h <;> rfl

theorem planned?_eq : (Call.asked chunk :: later).filterMap Call.planned? = [i.query chunk] := by
  cases h <;> rfl

theorem unprepared : Unprepared later := by
  cases h <;> simp [Unprepared]

end Fate.Turn

/-- A pair of neighbours is in two lists in a row only when it is in one of them or is where they
meet. -/
private theorem pair_infix_of_append {α : Type} {x y : α} {l m : List α}
    (h : [x, y] <:+: l ++ m) : [x, y] <:+: l ∨ [x, y] <:+: m ∨ (x ∈ l ∧ m.head? = some y) := by
  obtain hl | hm | ⟨l₁, l₂, heq, hl, hm⟩ := List.infix_append_iff.1 h
  · exact .inl hl
  · exact .inr (.inl hm)
  match l₁, heq with
  | [], heq =>
    obtain rfl : [x, y] = l₂ := heq
    exact .inr (.inl hm.isInfix)
  | [z], heq =>
    obtain ⟨rfl, rfl⟩ : x = z ∧ [y] = l₂ := by simpa using heq
    obtain ⟨rest, rfl⟩ := hm
    exact .inr (.inr ⟨hl.mem List.mem_cons_self, rfl⟩)
  | [z, z'], heq =>
    obtain ⟨rfl, rfl, rfl⟩ : x = z ∧ y = z' ∧ [] = l₂ := by simpa using heq
    exact .inl hl.isInfix

namespace Rounds

variable {calls : List Call} {closed : Bool}

theorem asks_ne_nil (h : Rounds i calls closed) (hclosed : closed = false) :
    calls.filterMap Call.asked? ≠ [] := by
  induction h with
  | unasked => cases hclosed
  | first chunk hturn => simp [hturn.asked?_eq]
  | read h hcall ih =>
    rw [List.filterMap_append]
    exact List.append_ne_nil_of_left_ne_nil (ih hclosed) _
  | further h q hturn ih => simp [List.filterMap_append, hturn.asked?_eq]
  | last h ih => cases hclosed

/-- The queries planned are the chunks, under the syntax of chunks and in order. -/
theorem planned_eq (h : Rounds i calls closed) :
    calls.filterMap Call.planned? =
      (i.chunks (calls.filterMap Call.asked?)).map QuerySettings.forChunk := by
  induction h with
  | unasked => rfl
  | first chunk hturn =>
    rw [hturn.planned?_eq, hturn.asked?_eq]
    rfl
  | @read calls closed h call hcall ih =>
    have hone := Readings.singleton hcall
    rw [List.filterMap_append, List.filterMap_append, hone.asked?_eq_nil, hone.planned?_eq_nil,
      List.append_nil, List.append_nil, ih]
  | further h q hturn ih =>
    rw [List.filterMap_append, List.filterMap_append, hturn.planned?_eq, hturn.asked?_eq,
      i.chunks_concat (h.asks_ne_nil rfl), ih, List.map_append]
    rfl
  | last h ih =>
    have hasked : [Call.asked none].filterMap Call.asked? = [none] := rfl
    rw [List.filterMap_append, List.filterMap_append, hasked,
      i.chunks_concat (h.asks_ne_nil rfl), ih, List.map_append]
    rfl

theorem unprepared (h : Rounds i calls closed) : Unprepared calls := by
  induction h with
  | unasked => exact fun call hcall => by cases hcall
  | first chunk hturn => exact List.forall_mem_cons.2 ⟨rfl, hturn.unprepared⟩
  | @read calls closed h call hcall ih =>
    have hone := Readings.singleton hcall
    exact List.forall_mem_append.2 ⟨ih, hone.unprepared⟩
  | further h q hturn ih =>
    exact List.forall_mem_append.2 ⟨ih, List.forall_mem_cons.2 ⟨rfl, hturn.unprepared⟩⟩
  | last h ih => exact List.forall_mem_append.2 ⟨ih, List.forall_mem_singleton.2 rfl⟩

/-- A chunk is planned right after a request that yields none only when it is the first. -/
theorem head?_of_fallback (h : Rounds i calls closed) {q : QuerySettings} {a : Authorizations}
    {answer : Except ScanError Plan} (hpair : [.asked none, .planned q a answer] <:+: calls) :
    (calls.filterMap Call.asked?).head? = some none := by
  -- what comes later does not change what was asked first
  have hkeep {calls later : List Call} (h : (calls.filterMap Call.asked?).head? = some none) :
      ((calls ++ later).filterMap Call.asked?).head? = some none := by
    rw [List.filterMap_append, List.head?_append, h]
    rfl
  induction h with
  | unasked => cases List.eq_nil_of_infix_nil hpair
  | @first chunk later f hturn =>
    obtain hhead | hmem := List.mem_cons.1 (hpair.mem List.mem_cons_self)
    · cases hhead
      rfl
    · cases hturn.isAsk_eq_false _ hmem
  | @read calls closed h call hcall ih =>
    obtain hpair | hpair | ⟨-, hmeet⟩ := pair_infix_of_append hpair
    · exact hkeep (ih hpair)
    · exact absurd hpair.length_le (by simp)
    · cases hmeet
      cases hcall
  | @further calls h q' later f hturn ih =>
    obtain hpair | hpair | ⟨-, hmeet⟩ := pair_infix_of_append hpair
    · exact hkeep (ih hpair)
    · obtain hhead | hmem := List.mem_cons.1 (hpair.mem List.mem_cons_self)
      · cases hhead
      · cases hturn.isAsk_eq_false _ hmem
    · cases hmeet
  | @last calls h ih =>
    obtain hpair | hpair | ⟨-, hmeet⟩ := pair_infix_of_append hpair
    · exact hkeep (ih hpair)
    · exact absurd hpair.length_le (by simp)
    · cases hmeet

theorem fallback_of_head? (h : Rounds i calls closed)
    (hhead : (calls.filterMap Call.asked?).head? = some none) :
    ∃ answer, [.asked none, .planned i.base.forChunk i.authorizations answer] <:+: calls := by
  have hkeep {calls later : List Call}
      (h : ∃ answer, [.asked none, .planned i.base.forChunk i.authorizations answer] <:+: calls) :
      ∃ answer, [.asked none, .planned i.base.forChunk i.authorizations answer] <:+:
        calls ++ later :=
    h.imp fun _ hpair => hpair.trans (List.prefix_append ..).isInfix
  induction h with
  | unasked => cases hhead
  | @first chunk later f hturn =>
    rw [hturn.asked?_eq] at hhead
    cases hhead
    obtain ⟨answer, rest, rfl⟩ := hturn.exists_planned
    exact ⟨answer, [], rest, rfl⟩
  | read h hcall ih =>
    rw [List.filterMap_append, (Readings.singleton hcall).asked?_eq_nil, List.append_nil] at hhead
    exact hkeep (ih hhead)
  | further h q hturn ih =>
    rw [List.filterMap_append, List.head?_append_of_ne_nil _ (h.asks_ne_nil rfl)] at hhead
    exact hkeep (ih hhead)
  | last h ih =>
    rw [List.filterMap_append, List.head?_append_of_ne_nil _ (h.asks_ne_nil rfl)] at hhead
    exact hkeep (ih hhead)

end Rounds

namespace Prologue

variable {calls : List Call}

theorem asked?_eq_nil (h : Prologue i wants calls) : calls.filterMap Call.asked? = [] := by
  cases h with
  | observed h hplan hreadings =>
    rw [List.filterMap_append, hreadings.asked?_eq_nil]
    rfl
  | _ => rfl

theorem planned?_eq (h : Prologue i wants calls) :
    calls.filterMap Call.planned? = if wants then [i.base] else [] := by
  cases h with
  | based h => rw [h]; rfl
  | planned h answer => rw [h]; rfl
  | refused h plan e => rw [h]; rfl
  | observed h hplan hreadings =>
    rw [List.filterMap_append, hreadings.planned?_eq_nil, h]
    rfl

theorem head?_eq (h : Prologue i wants calls) : calls.head? = some (.based i.base) := by
  cases h <;> rfl

theorem countP_isBased (h : Prologue i wants calls) : calls.countP Call.isBased = 1 := by
  cases h with
  | observed h hplan hreadings =>
    rw [List.countP_append, hreadings.unprepared.countP_isBased]
    rfl
  | _ => rfl

theorem countP_isObserved_le (h : Prologue i wants calls) :
    calls.countP Call.isObserved ≤ 1 := by
  cases h with
  | observed h hplan hreadings =>
    rw [List.countP_append, hreadings.unprepared.countP_isObserved]
    exact Nat.le_refl 1
  | _ => exact Nat.zero_le 1

theorem of_observed_mem (h : Prologue i wants calls) {plan : Plan}
    (hmem : .observed plan ∈ calls) :
    wants = true ∧ plan.hasWork = true ∧
      [.based i.base, .planned i.base i.authorizations (.ok plan),
        .scanned plan.table plan.authorizations plan.ranges none, .observed plan] <+: calls := by
  cases h with
  | @observed h plan' hplan readings hreadings =>
    obtain hmem | hmem := List.mem_append.1 hmem
    · obtain rfl : plan = plan' := by simpa using hmem
      exact ⟨h, hplan, List.prefix_append ..⟩
    · cases hreadings _ hmem
  | _ => simp at hmem

end Prologue

/-- How a run deals with the partition and the planner, by the record of its calls. -/
structure Conducted (base : QuerySettings) (authorizations : Authorizations) (wants : Bool)
    (calls : List Call) : Prop where
  /-- The partition is given the base query first of all. -/
  head?_eq : calls.head? = some (.based base)
  countP_isBased : calls.countP Call.isBased = 1
  /-- It observes the results of the base query at most once. -/
  countP_isObserved_le : calls.countP Call.isObserved ≤ 1
  /-- It does so if it wants to and there is something to scan, before it is asked for a chunk. -/
  of_observed_mem : ∀ plan, .observed plan ∈ calls →
    wants = true ∧ plan.hasWork = true ∧
      [.based base, .planned base authorizations (.ok plan),
        .scanned plan.table plan.authorizations plan.ranges none, .observed plan] <+: calls
  /-- The base query is planned as a chunk when there is no first chunk, and not otherwise. -/
  fallback_iff : (∃ q answer, q.InChunkSyntax base ∧
      [.asked none, .planned q authorizations answer] <:+: calls) ↔
    (calls.filterMap Call.asked?).head? = some none
  /-- Besides a pass over the base query the chunks are planned, in order, under their syntax. -/
  planned : List.Forall₂ QuerySettings.InChunkSyntax (calls.filterMap Call.planned?)
    ((if wants then [base] else []) ++
      Inquiry.chunks ⟨base, authorizations⟩ (calls.filterMap Call.asked?))

theorem Prologue.conducted {prologue rounds : List Call} {closed : Bool}
    (h : Prologue i wants prologue) (hbase : i.base.forChunk = i.base)
    (hrounds : Rounds i rounds closed) :
    Conducted i.base i.authorizations wants (prologue ++ rounds) where
  head?_eq := by
    rw [List.head?_append, h.head?_eq]
    rfl
  countP_isBased := by
    rw [List.countP_append, h.countP_isBased, hrounds.unprepared.countP_isBased]
  countP_isObserved_le := by
    rw [List.countP_append, hrounds.unprepared.countP_isObserved]
    exact h.countP_isObserved_le
  of_observed_mem plan hmem := by
    obtain hmem | hmem := List.mem_append.1 hmem
    · obtain ⟨hwants, hplan, hpass⟩ := h.of_observed_mem hmem
      exact ⟨hwants, hplan, hpass.trans (List.prefix_append ..)⟩
    · cases hrounds.unprepared _ hmem
  fallback_iff := by
    rw [List.filterMap_append, h.asked?_eq_nil, List.nil_append]
    constructor
    · rintro ⟨q, answer, -, hpair⟩
      have hunasked : Call.asked none ∉ prologue := fun hmem => by
        have hnone : (Call.asked none).asked? = none :=
          List.filterMap_eq_nil_iff.1 h.asked?_eq_nil _ hmem
        cases hnone
      obtain hpair | hpair | ⟨hmem, -⟩ := pair_infix_of_append hpair
      · exact absurd (hpair.mem List.mem_cons_self) hunasked
      · exact hrounds.head?_of_fallback hpair
      · exact absurd hmem hunasked
    · intro hhead
      obtain ⟨answer, hpair⟩ := hrounds.fallback_of_head? hhead
      exact ⟨_, answer, i.base.forChunk_inChunkSyntax,
        hpair.trans (List.suffix_append ..).isInfix⟩
  planned := by
    have hplanned : (prologue ++ rounds).filterMap Call.planned? =
        ((if wants then [i.base] else []) ++
          i.chunks (rounds.filterMap Call.asked?)).map QuerySettings.forChunk := by
      rw [List.filterMap_append, h.planned?_eq, hrounds.planned_eq, List.map_append]
      cases wants <;> simp [hbase]
    rw [hplanned, List.filterMap_append, h.asked?_eq_nil, List.nil_append]
    exact List.forall₂_map_left_iff.2 <| List.forall₂_same.2 fun q _ => q.forChunk_inChunkSyntax

end ShardQuery
