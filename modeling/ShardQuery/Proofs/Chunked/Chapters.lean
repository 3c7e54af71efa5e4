import ShardQuery.Proofs.Chunked.CallRecord

/-!
# Chapters of a record

The calls made for one chunk are a chapter of the record, which begins when the chunk is handed
out. A chapter tells what became of its chunk. What the calls for chunks amount to in counts is
computed here from their answers alone.
-/

namespace ShardQuery

namespace Call

@[simp]
def isAsk : Call → Bool
  | asked _ => true
  | _ => false

@[simp]
def entry? : Call → Option Entry
  | pulled (some (.ok e)) => some e
  | _ => none

@[simp]
def failure? : Call → Option ScanError
  | planned _ _ (.error e) => some e
  | scanned _ _ _ failure => failure
  | pulled (some (.error e)) => some e
  | _ => none

/-- True of an answer that sets a chunk up: a plan without ranges, or an open scan. -/
@[simp]
def starts : Call → Bool
  | planned _ _ (.ok plan) => !plan.hasWork
  | scanned _ _ _ none => true
  | _ => false

/-- True of an answer that completes a chunk: a plan without ranges, or the end of its cursor. -/
@[simp]
def completes : Call → Bool
  | planned _ _ (.ok plan) => !plan.hasWork
  | pulled none => true
  | _ => false

@[simp]
def skips (call : Call) : Bool := call.failure?.any ScanError.isChunkLocal

@[simp]
def opens : Call → Bool
  | scanned _ _ _ none => true
  | _ => false

@[simp]
def releases : Call → Bool
  | released => true
  | _ => false

end Call

namespace Metrics

/-- The metrics after calls for chunks. -/
def tallied (m : Metrics) (calls : List Call) : Metrics :=
  { m with
    chunksStarted := m.chunksStarted + calls.countP Call.starts
    chunksCompleted := m.chunksCompleted + calls.countP Call.completes
    chunksSkipped := m.chunksSkipped + calls.countP Call.skips
    sessionsOpened := m.sessionsOpened + calls.countP Call.opens
    sessionsClosed := m.sessionsClosed + calls.countP Call.releases
    entriesReturned := m.entriesReturned + (calls.filterMap Call.entry?).length }

theorem tallied_append (m : Metrics) (calls later : List Call) :
    m.tallied (calls ++ later) = (m.tallied calls).tallied later := by
  simp [tallied, Nat.add_assoc]

def withSessions (m : Metrics) (n : Nat) : Metrics :=
  { m with sessionsOpened := m.sessionsOpened + n, sessionsClosed := m.sessionsClosed + n }

end Metrics

abbrev Chapter := List Call

namespace Chapter

def entries (chapter : Chapter) : List Entry := chapter.filterMap Call.entry?

/-- Puts one more call on record. A chunk that is handed out begins a chapter, and so does the base
query when there is none; calls before the first chapter belong to none. -/
def note (chapters : List Chapter) (call : Call) : List Chapter :=
  match call with
  | .asked (some _) => chapters ++ [[call]]
  | .asked none => if chapters.isEmpty then [[call]] else chapters
  | _ =>
    match chapters.getLast? with
    | none => []
    | some current => chapters.dropLast ++ [current ++ [call]]

/-- The chapters of a record, one for each chunk that was set up. -/
def ofCalls (calls : List Call) : List Chapter := calls.foldl note []

theorem ofCalls_concat (calls : List Call) (call : Call) :
    ofCalls (calls ++ [call]) = note (ofCalls calls) call := by
  rw [ofCalls, List.foldl_append]
  rfl

private theorem note_inner {call : Call} (h : call.isAsk = false) (earlier : List Chapter)
    (current : Chapter) : note (earlier ++ [current]) call = earlier ++ [current ++ [call]] := by
  cases call with
  | asked chunk => cases h
  | _ => simp [note]

private theorem note_before {call : Call} (h : call.isAsk = false) : note [] call = [] := by
  cases call with
  | asked chunk => cases h
  | _ => rfl

theorem ofCalls_inner {calls later : List Call} (h : ∀ call ∈ later, call.isAsk = false)
    {earlier : List Chapter} {current : Chapter} (hcalls : ofCalls calls = earlier ++ [current]) :
    ofCalls (calls ++ later) = earlier ++ [current ++ later] := by
  induction later generalizing calls current with
  | nil => simpa using hcalls
  | cons call later ih =>
    have hnote : ofCalls (calls ++ [call]) = earlier ++ [current ++ [call]] := by
      rw [ofCalls_concat, hcalls, note_inner (h call List.mem_cons_self)]
    have hrest := ih (fun call hcall => h call (List.mem_cons_of_mem _ hcall)) hnote
    simpa using hrest

theorem ofCalls_before {calls : List Call} (h : ∀ call ∈ calls, call.isAsk = false) :
    ofCalls calls = [] := by
  unfold ofCalls
  induction calls with
  | nil => rfl
  | cons call calls ih =>
    rw [List.foldl_cons, note_before (h call List.mem_cons_self)]
    exact ih fun call hcall => h call (List.mem_cons_of_mem _ hcall)

theorem ofCalls_asked_some (calls : List Call) (q : QuerySettings) :
    ofCalls (calls ++ [.asked (some q)]) = ofCalls calls ++ [[.asked (some q)]] :=
  ofCalls_concat ..

theorem ofCalls_asked_none {calls : List Call} (h : ofCalls calls ≠ []) :
    ofCalls (calls ++ [.asked none]) = ofCalls calls := by
  rw [ofCalls_concat]
  exact if_neg (by simpa using h)

end Chapter

structure Inquiry where
  base : QuerySettings
  authorizations : Authorizations

def Inquiry.ofQuery (q : QuerySettings) (id : QueryId) (authorizations : Authorizations) :
    Inquiry :=
  ⟨ChunkStream.baseOf q id, authorizations⟩

/-- What is planned for a chunk: its own query, or the base query when there is none. -/
def Inquiry.query (i : Inquiry) (chunk : Option QuerySettings) : QuerySettings :=
  (chunk.getD i.base).forChunk

/-- What became of a chunk: it was handed out, its cursor is open, or how it ended. -/
inductive Fate where
  | waiting (chunk : Option QuerySettings)
  | reading | completed | skipped | failed | abandoned
deriving DecidableEq

namespace Fate

def ofError (e : ScanError) : Fate := if e.isChunkLocal then skipped else failed

def isWaiting : Fate → Bool
  | waiting _ => true
  | _ => false

def isSettled : Fate → Bool
  | completed | skipped => true
  | _ => false

variable {e : ScanError}

@[simp] theorem ofError_eq_skipped : ofError e = skipped ↔ e.isChunkLocal = true := by
  unfold ofError
  split <;> simp [*]

@[simp] theorem ofError_ne_completed : ofError e ≠ completed := by
  unfold ofError
  split <;> simp

@[simp] theorem ofError_ne_waiting {chunk : Option QuerySettings} : ofError e ≠ waiting chunk := by
  unfold ofError
  split <;> simp

@[simp] theorem ofError_ne_reading : ofError e ≠ reading := by
  unfold ofError
  split <;> simp

inductive Turn (i : Inquiry) : Fate → List Call → Fate → Prop where
  | idle (chunk : Option QuerySettings) {plan : Plan} (hplan : plan.hasWork = false) :
      Turn i (waiting chunk) [.planned (i.query chunk) i.authorizations (.ok plan)] completed
  | unplanned (chunk : Option QuerySettings) (e : ScanError) :
      Turn i (waiting chunk) [.planned (i.query chunk) i.authorizations (.error e)] (ofError e)
  | unopened (chunk : Option QuerySettings) {plan : Plan} (hplan : plan.hasWork = true)
      (e : ScanError) :
      Turn i (waiting chunk) [.planned (i.query chunk) i.authorizations (.ok plan),
        .scanned plan.table plan.authorizations plan.ranges (some e)] (ofError e)
  | opened (chunk : Option QuerySettings) {plan : Plan} (hplan : plan.hasWork = true) :
      Turn i (waiting chunk) [.planned (i.query chunk) i.authorizations (.ok plan),
        .scanned plan.table plan.authorizations plan.ranges none] reading
  | entry (e : Entry) : Turn i reading [.pulled (some (.ok e))] reading
  | broken (e : ScanError) : Turn i reading [.pulled (some (.error e)), .released] (ofError e)
  | readOut : Turn i reading [.pulled none, .released] completed
  | left : Turn i reading [.released] abandoned

theorem Turn.getLast?_ne {i : Inquiry} {f g : Fate} {later : List Call} (h : Turn i f later g)
    (calls : List Call) : (calls ++ later).getLast? ≠ some (.asked none) := by
  cases h <;> simp

theorem Turn.countP_skips {i : Inquiry} {f g : Fate} {later : List Call} (h : Turn i f later g) :
    later.countP Call.skips = if g = skipped then 1 else 0 := by
  cases h <;> grind [Call.skips, Call.failure?, ofError_eq_skipped]

theorem Turn.isAsk_eq_false {i : Inquiry} {f g : Fate} {calls : List Call} (h : Turn i f calls g) :
    ∀ call ∈ calls, call.isAsk = false := by
  cases h <;> simp

end Fate

namespace Chapter

variable {i : Inquiry}

/-- The chapters that can come about, and what became of their chunks. -/
inductive Tells (i : Inquiry) : Chapter → Fate → Prop where
  | asked (chunk : Option QuerySettings) : Tells i [.asked chunk] (.waiting chunk)
  | turn {t : Chapter} {f g : Fate} {calls : List Call} :
      Tells i t f → Fate.Turn i f calls g → Tells i (t ++ calls) g

namespace Tells

variable {t : Chapter} {f : Fate}

/-- What holds of the number of certain calls in a chapter, when every turn keeps it. -/
private theorem countP_of_turn {p : Call → Bool} {R : Fate → Nat → Prop}
    (hasked : ∀ chunk, p (.asked chunk) = false) (hwaiting : ∀ chunk, R (.waiting chunk) 0)
    (hturn : ∀ {f g n calls}, R f n → Fate.Turn i f calls g → R g (n + calls.countP p))
    (h : Tells i t f) : R f (t.countP p) := by
  induction h with
  | asked chunk => simpa [hasked] using hwaiting chunk
  | turn _ hnext ih =>
    rw [List.countP_append]
    exact hturn ih hnext

theorem countP_completes (h : Tells i t f) :
    t.countP Call.completes = if f = .completed then 1 else 0 := by
  refine countP_of_turn (R := fun f n => n = if f = .completed then 1 else 0) (fun _ => rfl)
    (fun _ => rfl) ?_ h
  rintro f g n calls rfl hnext
  cases hnext <;> simp [List.countP_cons, *]

theorem countP_skips (h : Tells i t f) :
    t.countP Call.skips = if f = .skipped then 1 else 0 := by
  refine countP_of_turn (R := fun f n => n = if f = .skipped then 1 else 0) (fun _ => rfl)
    (fun _ => rfl) ?_ h
  rintro f g n calls rfl hnext
  rw [hnext.countP_skips]
  cases hnext <;> simp

theorem countP_starts (h : Tells i t f) :
    t.countP Call.starts ≤ 1 ∧ (f.isWaiting = true → t.countP Call.starts = 0) ∧
      (f = .reading ∨ f = .completed → t.countP Call.starts = 1) := by
  refine countP_of_turn
    (R := fun f n =>
      n ≤ 1 ∧ (f.isWaiting = true → n = 0) ∧ (f = .reading ∨ f = .completed → n = 1))
    (fun _ => rfl) (by simp) ?_ h
  rintro f g n calls ⟨hle, hwaiting, hset⟩ hnext
  cases hnext <;> simp_all [List.countP_cons, Fate.isWaiting]

theorem countP_opens (h : Tells i t f) :
    t.countP Call.opens = t.countP Call.releases + if f = .reading then 1 else 0 := by
  induction h with
  | asked chunk => rfl
  | turn _ hnext ih =>
    rw [List.countP_append, List.countP_append, ih]
    cases hnext <;> simp [List.countP_cons]

end Tells

/-- The calls for a chunk whose cursor has yielded these entries. -/
def read (i : Inquiry) (chunk : Option QuerySettings) (plan : Plan) (entries : List Entry) :
    Chapter :=
  [.asked chunk, .planned (i.query chunk) i.authorizations (.ok plan),
    .scanned plan.table plan.authorizations plan.ranges none] ++
    entries.map fun e => .pulled (some (.ok e))

/-- The calls for a chunk that had nothing to scan, or whose cursor was read to its end without a
failure and then released. -/
inductive ReadOut (i : Inquiry) : Chapter → Prop where
  | idle (chunk : Option QuerySettings) {plan : Plan} (hplan : plan.hasWork = false) :
      ReadOut i [.asked chunk, .planned (i.query chunk) i.authorizations (.ok plan)]
  | scanned (chunk : Option QuerySettings) {plan : Plan} (hplan : plan.hasWork = true)
      (entries : List Entry) :
      ReadOut i (read i chunk plan entries ++ [.pulled none, .released])

namespace Tells

variable {t : Chapter} {f : Fate}

private theorem eq_of_waiting (h : Tells i t f) {chunk : Option QuerySettings}
    (hf : f = .waiting chunk) : t = [.asked chunk] := by
  cases h with
  | asked chunk' =>
    cases hf
    rfl
  | turn _ hnext => cases hnext <;> simp at hf

private theorem eq_of_reading (h : Tells i t f) (hf : f = .reading) :
    ∃ chunk plan entries, plan.hasWork = true ∧ t = read i chunk plan entries := by
  induction h with
  | asked chunk => cases hf
  | turn htold hnext ih =>
    cases hnext with
    | opened chunk hplan =>
      obtain rfl := htold.eq_of_waiting rfl
      exact ⟨chunk, _, [], hplan, rfl⟩
    | entry e =>
      obtain ⟨chunk, plan, entries, hplan, rfl⟩ := ih rfl
      exact ⟨chunk, plan, entries ++ [e], hplan, by simp [read]⟩
    | _ => simp at hf

theorem readOut (h : Tells i t f) (hf : f = .completed) : ReadOut i t := by
  cases h with
  | asked chunk => cases hf
  | turn htold hnext =>
    cases hnext with
    | idle chunk hplan =>
      obtain rfl := htold.eq_of_waiting rfl
      exact .idle chunk hplan
    | readOut =>
      obtain ⟨chunk, plan, entries, hplan, rfl⟩ := htold.eq_of_reading rfl
      exact .scanned chunk hplan entries
    | _ => simp at hf

end Tells

/-- A record in chapters: what became of the chunk in progress, if there is one yet, when those
before it are settled. -/
inductive Story (i : Inquiry) : List Chapter → Option Fate → Prop where
  | nil : Story i [] none
  | concat {earlier : List Chapter} {current : Chapter} {f : Fate} :
      (∀ t ∈ earlier, ∃ g, Tells i t g ∧ g.isSettled = true) → Tells i current f →
      Story i (earlier ++ [current]) (some f)

theorem counts_le {t : Chapter} {f : Fate} (h : Tells i t f) :
    t.countP Call.completes ≤ t.countP Call.starts ∧ t.countP Call.starts ≤ 1 ∧
      t.countP Call.completes + t.countP Call.skips ≤ 1 := by
  obtain ⟨hle, -, hset⟩ := h.countP_starts
  rw [h.countP_completes, h.countP_skips]
  cases f <;> simp [hle, hset]

theorem settled_counts {t : Chapter} {f : Fate} (h : Tells i t f) (hf : f.isSettled = true) :
    t.countP Call.completes + t.countP Call.skips = 1 ∧
      t.countP Call.opens = t.countP Call.releases := by
  rw [h.countP_completes, h.countP_skips, h.countP_opens]
  cases f <;> first | exact ⟨rfl, rfl⟩ | cases hf

namespace Story

variable {chapters : List Chapter} {fate : Option Fate}

theorem eq_nil (h : Story i chapters fate) (hfate : fate = none) : chapters = [] := by
  cases h with
  | nil => rfl
  | concat => cases hfate

theorem ne_nil {f : Fate} (h : Story i chapters (some f)) : chapters ≠ [] := by
  cases h
  simp

theorem exists_tells (h : Story i chapters fate) : ∀ t ∈ chapters, ∃ f, Tells i t f := by
  cases h with
  | nil => simp
  | concat hearlier hcurrent =>
    intro t ht
    rcases List.mem_append.1 ht with ht | ht
    · obtain ⟨g, htells, -⟩ := hearlier t ht
      exact ⟨g, htells⟩
    · exact ⟨_, List.mem_singleton.1 ht ▸ hcurrent⟩

private theorem sum_counts_le {chapters : List Chapter} (h : ∀ t ∈ chapters, ∃ f, Tells i t f) :
    chapters.flatten.countP Call.completes ≤ chapters.flatten.countP Call.starts ∧
      chapters.flatten.countP Call.starts ≤ chapters.length ∧
      chapters.flatten.countP Call.completes + chapters.flatten.countP Call.skips ≤
        chapters.length := by
  induction chapters with
  | nil => simp
  | cons t chapters ih =>
    obtain ⟨f, htells⟩ := h t List.mem_cons_self
    have hfirst := counts_le htells
    have hrest := ih fun t ht => h t (List.mem_cons_of_mem _ ht)
    simp only [List.flatten_cons, List.countP_append, List.length_cons]
    omega

theorem counts_le_length (h : Story i chapters fate) :
    chapters.flatten.countP Call.completes ≤ chapters.flatten.countP Call.starts ∧
      chapters.flatten.countP Call.starts ≤ chapters.length ∧
      chapters.flatten.countP Call.completes + chapters.flatten.countP Call.skips ≤
        chapters.length :=
  sum_counts_le h.exists_tells

private theorem sum_settled {chapters : List Chapter}
    (h : ∀ t ∈ chapters, ∃ f, Tells i t f ∧ f.isSettled = true) :
    chapters.flatten.countP Call.completes + chapters.flatten.countP Call.skips =
        chapters.length ∧
      chapters.flatten.countP Call.opens = chapters.flatten.countP Call.releases := by
  induction chapters with
  | nil => exact ⟨rfl, rfl⟩
  | cons t chapters ih =>
    obtain ⟨f, htells, hf⟩ := h t List.mem_cons_self
    have hfirst := settled_counts htells hf
    have hrest := ih fun t ht => h t (List.mem_cons_of_mem _ ht)
    simp only [List.flatten_cons, List.countP_append, List.length_cons]
    omega

/-- When the chunk in progress is settled, all are. -/
theorem settled {f : Fate} (h : Story i chapters (some f)) (hf : f.isSettled = true) :
    ∀ t ∈ chapters, ∃ g, Tells i t g ∧ g.isSettled = true := by
  cases h with
  | concat hearlier hcurrent =>
    intro t ht
    rcases List.mem_append.1 ht with ht | ht
    · exact hearlier t ht
    · exact ⟨f, List.mem_singleton.1 ht ▸ hcurrent, hf⟩

theorem counts_eq_length {f : Fate} (h : Story i chapters (some f)) (hf : f.isSettled = true) :
    chapters.flatten.countP Call.completes + chapters.flatten.countP Call.skips =
      chapters.length :=
  (sum_settled (h.settled hf)).1

theorem countP_opens (h : Story i chapters fate) :
    chapters.flatten.countP Call.opens =
      chapters.flatten.countP Call.releases + if fate = some .reading then 1 else 0 := by
  cases h with
  | nil => rfl
  | concat hearlier hcurrent =>
    have hlast := hcurrent.countP_opens
    have hrest := (sum_settled hearlier).2
    simp only [List.flatten_append, List.flatten_singleton, List.countP_append, Option.some.injEq]
    omega

end Story
end Chapter

/-- What the record of a run says about its metrics and its entries, for the metrics before the
run and the fate of the chunk in progress. -/
structure Ledger (i : Inquiry) (before : Metrics) (calls : List Call) (m : Metrics)
    (yielded : List Entry) (skipped : Nat) (fate : Option Fate) : Prop where
  story : Chapter.Story i (Chapter.ofCalls calls) fate
  tallied : ∃ n, m = (before.withSessions n).tallied (Chapter.ofCalls calls).flatten
  yielded_eq : yielded = (Chapter.ofCalls calls).flatten.filterMap Call.entry?
  skipped_eq : skipped = (Chapter.ofCalls calls).flatten.countP Call.skips
  exhausted : calls.getLast? = some (.asked none) →
    ∃ f, fate = some f ∧ (f.isWaiting = true ∨ f.isSettled = true)

namespace Ledger

open Chapter

variable {i : Inquiry} {before m : Metrics} {calls later : List Call} {yielded : List Entry}
  {skipped : Nat} {f g : Fate} {fate : Option Fate}

theorem turn (h : Ledger i before calls m yielded skipped (some f)) (hturn : Fate.Turn i f later g)
    {calls' : List Call} {m' : Metrics} {yielded' : List Entry} {skipped' : Nat}
    (hcalls : calls' = calls ++ later) (hm : m' = m.tallied later)
    (hyielded : yielded' = yielded ++ later.filterMap Call.entry?)
    (hskipped : skipped' = skipped + later.countP Call.skips) :
    Ledger i before calls' m' yielded' skipped' (some g) := by
  subst hcalls
  obtain ⟨hstory, ⟨n, htallied⟩, hentries, hskips, -⟩ := h
  generalize hchapters : ofCalls calls = chapters at hstory htallied hentries hskips
  cases hstory with
  | @concat earlier current _ hearlier hcurrent =>
    have hnext : ofCalls (calls ++ later) = earlier ++ [current ++ later] :=
      ofCalls_inner hturn.isAsk_eq_false hchapters
    have hflatten : (ofCalls (calls ++ later)).flatten =
        (earlier ++ [current]).flatten ++ later := by
      rw [hnext]
      simp
    refine ⟨?_, ⟨n, ?_⟩, ?_, ?_, ?_⟩
    · rw [hnext]
      exact .concat hearlier (hcurrent.turn hturn)
    · rw [hflatten, Metrics.tallied_append, hm, htallied]
    · rw [hflatten, List.filterMap_append, hyielded, hentries]
    · rw [hflatten, List.countP_append, hskipped, hskips]
    · intro hlast
      exact absurd hlast (hturn.getLast?_ne calls)

theorem asked_some (h : Ledger i before calls m yielded skipped (some f)) (hf : f.isSettled = true)
    (q : QuerySettings) :
    Ledger i before (calls ++ [.asked (some q)]) m yielded skipped
      (some (.waiting (some q))) := by
  obtain ⟨hstory, ⟨n, hm⟩, hyielded, hskipped, -⟩ := h
  have hflatten : (ofCalls (calls ++ [.asked (some q)])).flatten =
      (ofCalls calls).flatten ++ [.asked (some q)] := by
    rw [ofCalls_asked_some]
    simp
  refine ⟨?_, ⟨n, ?_⟩, ?_, ?_, fun _ => ⟨_, rfl, Or.inl rfl⟩⟩
  · rw [ofCalls_asked_some]
    exact .concat (hstory.settled hf) (.asked (some q))
  · rw [hflatten, Metrics.tallied_append, hm]
    rfl
  · rw [hflatten, List.filterMap_append, hyielded]
    exact (List.append_nil _).symm
  · rw [hflatten, List.countP_append, hskipped]
    rfl

theorem asked_none (h : Ledger i before calls m yielded skipped (some f))
    (hf : f.isSettled = true) :
    Ledger i before (calls ++ [.asked none]) m yielded skipped (some f) := by
  have hsame := ofCalls_asked_none h.story.ne_nil
  exact ⟨hsame ▸ h.story, hsame ▸ h.tallied, hsame ▸ h.yielded_eq, hsame ▸ h.skipped_eq,
    fun _ => ⟨f, rfl, Or.inr hf⟩⟩

theorem asked_first (h : Ledger i before calls m yielded skipped none)
    (chunk : Option QuerySettings) :
    Ledger i before (calls ++ [.asked chunk]) m yielded skipped
      (some (.waiting chunk)) := by
  obtain ⟨hstory, ⟨n, hm⟩, hyielded, hskipped, -⟩ := h
  have hnil : ofCalls calls = [] := hstory.eq_nil rfl
  have hfirst : ofCalls (calls ++ [.asked chunk]) = [] ++ [[.asked chunk]] := by
    rw [ofCalls_concat, hnil]
    cases chunk <;> rfl
  rw [hnil] at hm hyielded hskipped
  refine ⟨?_, ⟨n, ?_⟩, ?_, ?_, fun _ => ⟨_, rfl, Or.inl rfl⟩⟩
  · rw [hfirst]
    exact .concat (by simp) (.asked chunk)
  · rw [hfirst, hm]
    rfl
  · rw [hfirst, hyielded]
    rfl
  · rw [hfirst, hskipped]
    rfl

end Ledger
end ShardQuery
