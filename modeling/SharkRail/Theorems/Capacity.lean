import SharkRail.Lemmas.Lives
import SharkRail.Service.Run
import SharkRail.Theorems.Accounting
import SharkRail.Theorems.Terminal

/-!
# Recovery at the capacity of the rows

A recovery or a request to cancel moves rows to their next phase, logs an event for each and announces the terminal ones, so it makes
the rows grow by a sum over the rows it moves (`growth`). In every reachable store the statements go through, and the only check that is
left is the one on the capacity: the operation raises exactly when its growth does not fit (`recovery_capacity`).
-/

namespace SharkRail

namespace Store

open Fallible Relation

variable {cfg : StoreConfig} {s s' : Store}

/-! ## The log of events -/

/-- The events stand in the order of their numbers, all drawn from the sequence, and no more than are kept. -/
structure Sequenced (cfg : StoreConfig) (s : Store) : Prop where
  ordered : s.events.Pairwise fun e e' => e.seq < e'.seq
  drawn : ∀ e ∈ s.events, e.seq < s.nextSeq
  few : s.events.length ≤ cfg.maxEventRecords.toNat

/-- The newest events, as many as are kept. -/
def keepNewest (cfg : StoreConfig) (events : List EventRow) : List EventRow :=
  events.drop (events.length - cfg.maxEventRecords.toNat)

/-- Trimming the log of the events twice keeps what trimming it once at the end keeps. -/
theorem keepNewest_append (cfg : StoreConfig) (events new : List EventRow) :
    keepNewest cfg (keepNewest cfg events ++ new) = keepNewest cfg (events ++ new) := by
  unfold keepNewest
  by_cases hfew : events.length ≤ cfg.maxEventRecords.toNat
  · rw [Nat.sub_eq_zero_of_le hfew, List.drop_zero]
  · have hsplit : events ++ new =
        events.take (events.length - cfg.maxEventRecords.toNat) ++
          (events.drop (events.length - cfg.maxEventRecords.toNat) ++ new) := by
      rw [← List.append_assoc, List.take_append_drop]
    have hdrop : ∀ (old rest : List EventRow) (n : Nat), n = old.length → ∀ m, (old ++ rest).drop (n + m) = rest.drop m := by
      rintro old rest _ rfl m
      rw [List.drop_append]
      simp
    rw [hsplit, ← hdrop (events.take (events.length - cfg.maxEventRecords.toNat)) _
      (events.length - cfg.maxEventRecords.toNat) (by simp)]
    congr 1
    simp only [List.length_append, List.length_take, List.length_drop]
    omega

/-- In a log in order, the oldest events are trimmed. -/
theorem logged_eq {e : EventRow} {events : List EventRow} (h : (events ++ [e]).Pairwise fun e e' => e.seq < e'.seq) :
    logged cfg e events = keepNewest cfg (events ++ [e]) := by
  have hsorted : ((events ++ [e]).map (·.seq)).insertionSort (fun a b => a ≥ b) = ((events ++ [e]).map (·.seq)).reverse := by
    have hperm : (((events ++ [e]).map (·.seq)).insertionSort fun a b => a ≥ b).Perm ((events ++ [e]).map (·.seq)).reverse :=
      (List.perm_insertionSort _ _).trans (List.reverse_perm _).symm
    have hdescending : (((events ++ [e]).map (·.seq)).reverse).Pairwise fun a b => a ≥ b := by
      rw [List.pairwise_reverse, List.pairwise_map]
      exact h.imp fun hlt => Nat.le_of_lt hlt
    exact List.Perm.eq_of_pairwise' (List.pairwise_insertionSort (fun a b : Nat => a ≥ b) _) hdescending hperm
  unfold logged keepNewest Table.insert
  dsimp only
  rw [hsorted]
  generalize events ++ [e] = all at h ⊢
  have hsplit := List.take_append_drop (all.length - cfg.maxEventRecords.toNat) all
  have htrimmed : ((all.map (·.seq)).reverse).drop cfg.maxEventRecords.toNat =
      ((all.take (all.length - cfg.maxEventRecords.toNat)).map (·.seq)).reverse := by
    rw [List.drop_reverse, List.length_map, ← List.map_take]
  rw [htrimmed]
  generalize all.take (all.length - cfg.maxEventRecords.toNat) = old at hsplit ⊢
  generalize all.drop (all.length - cfg.maxEventRecords.toNat) = newest at hsplit ⊢
  subst hsplit
  obtain ⟨-, -, hcross⟩ := List.pairwise_append.1 h
  unfold Table.delete
  rw [List.filter_append, List.filter_eq_nil_iff.2, List.filter_eq_self.2, List.nil_append]
  · intro x hx
    simp only [List.contains_eq_mem, List.mem_reverse, List.mem_map, Bool.not_eq_true', decide_eq_false_iff_not, not_exists, not_and]
    rintro y hy heq
    exact absurd (hcross y hy x hx) (by omega)
  · intro x hx
    simp only [List.contains_eq_mem, List.mem_reverse, List.mem_map, Bool.not_eq_true', decide_eq_false_iff_not, not_not]
    exact ⟨x, hx, rfl⟩

/-- The log after an event has the events before it and that one. -/
theorem mem_logged {e x : EventRow} {events : List EventRow} (h : x ∈ logged cfg e events) : x ∈ events ∨ x = e := by
  unfold logged at h
  exact Table.mem_insert.1 (Table.mem_delete.1 h).1

/-- One more event is logged: the log stays in order, and the oldest events beyond those that are kept are trimmed. -/
theorem Sequenced.logged {e : EventRow} (h : Sequenced cfg s) (hseq : e.seq = s.nextSeq) (hevents : s'.events = logged cfg e s.events)
    (hnext : s'.nextSeq = s.nextSeq + 1) : Sequenced cfg s' ∧ s'.events = keepNewest cfg (s.events ++ [e]) := by
  have hordered : (s.events ++ [e]).Pairwise fun e e' => e.seq < e'.seq := by
    refine List.pairwise_append.2 ⟨h.ordered, List.pairwise_singleton _ _, ?_⟩
    rintro x hx y (_ | ⟨_, ⟨⟩⟩)
    rw [hseq]
    exact h.drawn x hx
  have hkept := hevents.trans (logged_eq hordered)
  refine ⟨⟨?_, fun x hx => ?_, ?_⟩, hkept⟩
  · rw [hkept]
    exact List.Pairwise.sublist (List.drop_sublist _ _) hordered
  · rw [hnext]
    rcases mem_logged (hevents ▸ hx) with hx | rfl
    · exact (h.drawn x hx).trans (Nat.lt_succ_self _)
    · rw [hseq]
      exact Nat.lt_succ_self _
  · rw [hkept, keepNewest, List.length_drop]
    omega

/-- Every statement keeps the numbers of the events in their order. -/
theorem sequenced_stable : Stable cfg (Sequenced cfg) where
  draw h := ⟨h.ordered, h.drawn, h.few⟩
  insertJob _ h := ⟨h.ordered, h.drawn, h.few⟩
  updateJobs _ _ h := ⟨h.ordered, h.drawn, h.few⟩
  deleteJobs _ h :=
    ⟨List.Pairwise.sublist List.filter_sublist h.ordered, fun e he => h.drawn e (Table.mem_delete.1 he).1,
      (List.length_filter_le _ _).trans h.few⟩
  event h he := by
    obtain ⟨bytes, rfl⟩ := event_eq he
    exact (h.logged rfl rfl rfl).1
  insertOutbox _ h := ⟨h.ordered, h.drawn, h.few⟩
  updateOutbox _ _ h := ⟨h.ordered, h.drawn, h.few⟩
  insertDeletion d h := by
    unfold Store.insertDeletion
    split
    · exact h
    · exact ⟨h.ordered, h.drawn, h.few⟩
  deleteDeletions _ h := ⟨h.ordered, h.drawn, h.few⟩
  create drawn := by
    have hevents := (create_tables cfg drawn).2.2.2.1
    refine ⟨?_, fun e he => ?_, ?_⟩
    · rw [hevents]
      exact List.Pairwise.nil
    · rw [hevents] at he
      cases he
    · rw [hevents]
      exact Nat.zero_le _
  migrate h := ⟨h.ordered, h.drawn, h.few⟩

/-- Every event is of a job, up to its revision. -/
def Dated (s : Store) : Prop := ∀ e ∈ s.events, ∃ r ∈ s.jobs, r.id = e.jobId ∧ e.revision ≤ r.revision

/-- No step lowers a revision. -/
theorem RowStep.revision_le {drawn : Uuid} {clock : Reading} {row row' : JobRow} {call : StoreCall} {kind : Option String}
    {notes : List OutboxRow} (h : RowStep drawn clock row call row' kind notes) : row.revision ≤ row'.revision := by
  cases h <;> first | exact Nat.le_refl _ | exact Nat.le_succ _

/-- A statement keeps every event dated. -/
theorem Dated.change {call : StoreCall} {clock : Reading} (hs : WellFormed s) (hd : Dated s) (h : Change cfg call clock s s') :
    Dated s' := by
  cases h with
  | accepted tenantId key spec hcall hspec hnew hroom hjobs hevents =>
    intro e he
    rw [hevents] at he
    rw [hjobs]
    rcases mem_logged he with he | rfl
    · obtain ⟨r, hr, hre⟩ := hd e he
      exact ⟨r, Table.mem_insert.2 (Or.inl hr), hre⟩
    · exact ⟨_, Table.mem_insert.2 (Or.inr rfl), rfl, Nat.le_refl _⟩
  | moved row row' kind notes hrow hstep hjobs hevents hquiet =>
    have hkept : ∀ e ∈ s.events, ∃ r ∈ s'.jobs, r.id = e.jobId ∧ e.revision ≤ r.revision := by
      intro e he
      obtain ⟨r, hr, hid, hrevision⟩ := hd e he
      by_cases heq : r.id = row.id
      · obtain rfl := Table.eq_of_key JobRow.id hs.jobIds hr hrow heq
        refine ⟨row', ?_, hstep.key.1.trans hid, hrevision.trans hstep.revision_le⟩
        rw [hjobs, mem_replaceJob]
        exact Or.inr ⟨rfl, r, hrow, rfl⟩
      · refine ⟨r, ?_, hid, hrevision⟩
        rw [hjobs, mem_replaceJob]
        exact Or.inl ⟨hr, heq⟩
    intro e he
    cases kind with
    | none => exact hkept e (hquiet rfl ▸ he)
    | some k =>
      obtain ⟨now, hlogged⟩ := hevents k rfl
      rw [hlogged] at he
      rcases mem_logged he with he | rfl
      · exact hkept e he
      · refine ⟨row', ?_, hstep.key.1, Nat.le_refl _⟩
        rw [hjobs, mem_replaceJob]
        exact Or.inr ⟨rfl, row, hrow, rfl⟩
  | released _ _ _ hjobs hevents | cleared _ _ _ hjobs _ hevents =>
    unfold Dated
    rw [hjobs, hevents]
    exact hd
  | delivery _ _ _ _ _ hjobs hevents =>
    unfold Dated
    rw [hjobs, hevents]
    exact hd
  | pruned _ _ row _ _ _ _ hjobs _ hevents =>
    intro e he
    rw [hevents, Table.mem_delete] at he
    obtain ⟨r, hr, hid, hrevision⟩ := hd e he.1
    refine ⟨r, ?_, hid, hrevision⟩
    rw [hjobs, Table.mem_delete]
    exact ⟨hr, by simpa [hid] using he.2⟩
  | restarted _ htables =>
    split at htables
    · rw [htables]
      intro e he
      rw [(create_tables cfg s.drawn).2.2.2.1] at he
      cases he
    · rw [htables]
      exact hd

/-- What lets the statements of an operation go through. -/
structure Sound (cfg : StoreConfig) (s : Store) : Prop where
  wellFormed : WellFormed s
  readable : Readable s
  sequenced : Sequenced cfg s
  dated : Dated s

/-- A reachable store lets the statements go through. -/
theorem Reachable.sound (h : Reachable cfg s) : Sound cfg s := by
  have hdated : Dated s := by
    refine h.induct (fun e he => ?_) fun _ _ _ _ hs hd hc => hd.change hs hc
    rw [(create_tables cfg 0).2.2.2.1] at he
    cases he
  exact ⟨h.wellFormed, h.holds, sequenced_stable.reachable h, hdated⟩

/-! ## Moves -/

/-- A row that an operation moves, with the row after it, the event it logs, and whether it announces the row. -/
structure Move where
  row : JobRow
  row' : JobRow
  now : Instant
  kind : String
  announced : Bool

def Move.event (seq : Nat) (m : Move) : EventRow := ⟨seq, m.row.id, m.row.revision + 1, m.kind, m.now⟩

def Move.notes (drawn : Uuid) (m : Move) : List OutboxRow := if m.announced then notifications m.now drawn m.row' else []

/-- The events that moves log, numbered from `seq`. -/
def eventsOf : Nat → List Move → List EventRow
  | _, [] => []
  | seq, m :: ms => m.event seq :: eventsOf (seq + 1) ms

/-- The notifications that moves add, under ids drawn from `drawn` on. -/
def announcements : Uuid → List Move → List OutboxRow
  | _, [] => []
  | drawn, m :: ms => m.notes drawn ++ announcements (drawn + (m.notes drawn).length) ms

/-- By how much moves make the rows grow: the rows they move, the events they log less those that are trimmed, and the notifications
they add. -/
def growth (cfg : StoreConfig) (ms : List Move) (s : Store) : Int :=
  (ms.map fun m => m.row'.bytes cfg.host - m.row.bytes cfg.host).sum +
      (Table.total EventRow.bytes (keepNewest cfg (s.events ++ eventsOf s.nextSeq ms)) - Table.total EventRow.bytes s.events) +
    Table.total (OutboxRow.bytes cfg.host) (announcements s.drawn ms)

/-- The tables after a move. -/
structure Moved (cfg : StoreConfig) (m : Move) (s s' : Store) : Prop where
  jobs : s'.jobs = replaceJob m.row.id m.row' s.jobs
  events : s'.events = logged cfg (m.event s.nextSeq) s.events
  nextSeq : s'.nextSeq = s.nextSeq + 1
  outbox : s'.outbox = s.outbox ++ m.notes s.drawn
  drawn : s'.drawn = s.drawn + (m.notes s.drawn).length
  metadata : s'.metadata = s.metadata
  deletions : s'.deletions = s.deletions

/-- The tables after a sequence of moves. -/
def MovedAll (cfg : StoreConfig) : List Move → Store → Store → Prop
  | [], s, s' => s' = s
  | m :: ms, s, s' => ∃ s₁, Moved cfg m s s₁ ∧ MovedAll cfg ms s₁ s'

/-- With ids unique, replacing a row adds what the new row weighs more. -/
theorem total_replaceJob {w : JobRow → Int} {jobs : List JobRow} {row row' : JobRow} (hn : (jobs.map (·.id)).Nodup) (hrow : row ∈ jobs) :
    Table.total w (replaceJob row.id row' jobs) = Table.total w jobs + (w row' - w row) := by
  unfold replaceJob
  rw [Table.total_update, Table.updateDelta]
  rw [Table.select_key hn hrow]
  simp

/-- A row that is not moved is there after the move. -/
theorem Moved.mem {m : Move} (h : Moved cfg m s s') {r : JobRow} (hr : r ∈ s.jobs) (hne : r.id ≠ m.row.id) : r ∈ s'.jobs := by
  rw [h.jobs, mem_replaceJob]
  exact Or.inl ⟨hr, hne⟩

/-- A move makes the rows grow by what it adds. -/
theorem Moved.rowBytes {m : Move} (hn : (s.jobs.map (·.id)).Nodup) (h : Moved cfg m s s') (hrow : m.row ∈ s.jobs) :
    rowBytes cfg s' = rowBytes cfg s + (m.row'.bytes cfg.host - m.row.bytes cfg.host) +
      (Table.total EventRow.bytes s'.events - Table.total EventRow.bytes s.events) +
      Table.total (OutboxRow.bytes cfg.host) (m.notes s.drawn) := by
  simp only [Store.rowBytes]
  rw [h.jobs, h.outbox, h.metadata, h.deletions, total_replaceJob hn hrow, Table.total_append]
  omega

/-- A sequence of moves of different rows makes the rows grow by their growth. -/
theorem MovedAll.rowBytes {ms : List Move} (hn : (s.jobs.map (·.id)).Nodup) (hs : Sequenced cfg s) (h : MovedAll cfg ms s s')
    (hrows : ∀ m ∈ ms, m.row ∈ s.jobs ∧ m.row'.id = m.row.id) (hids : (ms.map (·.row.id)).Nodup) :
    Store.rowBytes cfg s' = Store.rowBytes cfg s + growth cfg ms s := by
  induction ms generalizing s with
  | nil =>
    subst h
    have hkept : keepNewest cfg s'.events = s'.events := by
      unfold keepNewest
      rw [Nat.sub_eq_zero_of_le hs.few, List.drop_zero]
    simp [growth, eventsOf, announcements, hkept]
  | cons m ms ih =>
    obtain ⟨s₁, hmoved, hrest⟩ := h
    obtain ⟨hnot, hids⟩ := List.nodup_cons.1 hids
    obtain ⟨hrow, hid⟩ := hrows m List.mem_cons_self
    obtain ⟨hseq, hevents⟩ := hs.logged rfl hmoved.events hmoved.nextSeq
    have hn₁ : (s₁.jobs.map (·.id)).Nodup := by
      rw [hmoved.jobs, map_replaceJob _ hn hrow hid]
      exact hn
    have hrows₁ : ∀ m' ∈ ms, m'.row ∈ s₁.jobs ∧ m'.row'.id = m'.row.id := by
      intro m' hm'
      obtain ⟨hmem, hid'⟩ := hrows m' (List.mem_cons_of_mem _ hm')
      exact ⟨hmoved.mem hmem fun heq => hnot (List.mem_map.2 ⟨m', hm', heq⟩), hid'⟩
    have hkept : keepNewest cfg (s₁.events ++ eventsOf s₁.nextSeq ms) = keepNewest cfg (s.events ++ eventsOf s.nextSeq (m :: ms)) := by
      rw [hevents, hmoved.nextSeq, keepNewest_append, List.append_assoc]
      rfl
    have hnotes : announcements s.drawn (m :: ms) = m.notes s.drawn ++ announcements s₁.drawn ms := by
      rw [hmoved.drawn]
      rfl
    rw [ih hn₁ hseq hrest hrows₁ hids, hmoved.rowBytes hn hrow]
    unfold growth
    rw [hkept, hnotes, Table.total_append, List.map_cons, List.sum_cons]
    omega

/-- A row that was moved is there after all moves. -/
theorem MovedAll.settled {ms : List Move} (h : MovedAll cfg ms s s') (hrows : ∀ m ∈ ms, m.row ∈ s.jobs ∧ m.row'.id = m.row.id)
    (hids : (ms.map (·.row.id)).Nodup) {r : JobRow} (hr : r ∈ s.jobs ∧ (∀ m ∈ ms, r.id ≠ m.row.id) ∨ ∃ m ∈ ms, m.row' = r) :
    r ∈ s'.jobs := by
  induction ms generalizing s with
  | nil =>
    subst h
    rcases hr with ⟨hr, -⟩ | ⟨m, hm, -⟩
    · exact hr
    · cases hm
  | cons m ms ih =>
    obtain ⟨s₁, hmoved, hrest⟩ := h
    obtain ⟨hnot, hids⟩ := List.nodup_cons.1 hids
    have hother : ∀ m' ∈ ms, m'.row.id ≠ m.row.id := fun m' hm' heq => hnot (List.mem_map.2 ⟨m', hm', heq⟩)
    refine ih hrest (fun m' hm' => ?_) hids ?_
    · obtain ⟨hmem, hid⟩ := hrows m' (List.mem_cons_of_mem _ hm')
      exact ⟨hmoved.mem hmem (hother m' hm'), hid⟩
    · rcases hr with ⟨hr, hne⟩ | ⟨m', hm', rfl⟩
      · exact Or.inl ⟨hmoved.mem hr (hne m List.mem_cons_self), fun m' hm' => hne m' (List.mem_cons_of_mem _ hm')⟩
      · rcases List.mem_cons.1 hm' with rfl | hm'
        · obtain ⟨hrow, hid⟩ := hrows m' List.mem_cons_self
          refine Or.inl ⟨?_, fun m hm heq => hother m hm (heq.symm.trans hid)⟩
          rw [hmoved.jobs, mem_replaceJob]
          exact Or.inr ⟨rfl, m'.row, hrow, rfl⟩
        · exact Or.inr ⟨m', hm', rfl⟩

/-! ## The statements go through -/

/-- An event is logged where there is none of that revision and kind. -/
theorem event_returns (cfg : StoreConfig) (now : Instant) {jobId : Uuid} {revision : Nat} {kind : String}
    (hnew : ∀ e ∈ s.events, ¬(e.jobId = jobId ∧ e.revision = revision ∧ e.kind = kind)) :
    ∃ s', s.event cfg now jobId revision kind = .ok s' := by
  unfold Store.event
  rw [if_neg]
  · exact ⟨_, rfl⟩
  · rw [List.any_eq_true]
    rintro ⟨e, he, heq⟩
    exact hnew e he (by simpa using heq)

/-- The notification of a row is stored, or the statement raises for the endpoint it names. -/
theorem notify_cases (cfg : StoreConfig) (s : Store) (now : Instant) {row : JobRow} {spec : JobSpec} (h : row.Holds spec) :
    (row.Notifiable ∧ ∃ s', s.notify cfg now row = .ok s') ∨
      ¬row.Notifiable ∧ ∃ endpoint ∈ row.unencodable, s.notify cfg now row = .error (.py (.unicodeEncodeError endpoint)) := by
  unfold Store.notify JobRow.Notifiable
  rw [h.rowToJob, h.endpoint]
  dsimp only [bind, Except.bind]
  cases hnamed : endpointOf (spec.reread true) with
  | none => exact .inl ⟨nofun, _, rfl⟩
  | some endpoint =>
    dsimp only
    by_cases hunicode : PyStr.Unicode endpoint
    · obtain ⟨bytes, hbytes⟩ := PyStr.exists_encode.2 hunicode
      refine .inl ⟨by simpa using hunicode, ?_⟩
      rw [hbytes]
      exact ⟨_, rfl⟩
    · have hnone : PyStr.encode endpoint = none := by
        rw [Option.eq_none_iff_forall_not_mem]
        exact fun bytes hbytes => hunicode (PyStr.exists_encode.1 ⟨bytes, hbytes⟩)
      refine .inr ⟨by simpa using hunicode, endpoint, JobRow.mem_unencodable.2 ⟨h.endpoint.trans hnamed, hunicode⟩, ?_⟩
      rw [hnone]
      rfl

/-- The announcement of a row is written where the row can be announced. -/
theorem notify_returns (cfg : StoreConfig) (s : Store) (now : Instant) {row : JobRow} {spec : JobSpec} (h : row.Holds spec)
    (hnotifiable : row.Notifiable) : ∃ s', s.notify cfg now row = .ok s' := by
  rcases notify_cases cfg s now h with ⟨-, hreturned⟩ | ⟨hnot, -⟩
  · exact hreturned
  · exact absurd hnotifiable hnot

/-- The announcement of a row that cannot be announced raises on one of its texts. -/
theorem notify_raises (cfg : StoreConfig) (s : Store) (now : Instant) {row : JobRow} {spec : JobSpec} (h : row.Holds spec)
    (hnotifiable : ¬row.Notifiable) : ∃ endpoint ∈ row.unencodable, s.notify cfg now row = .error (.py (.unicodeEncodeError endpoint)) := by
  rcases notify_cases cfg s now h with ⟨hnot, -⟩ | ⟨-, hraised⟩
  · exact absurd hnot hnotifiable
  · exact hraised

/-- A row that is there is read. -/
theorem rowOf_returns {row : JobRow} (h : row ∈ s.jobs) : ∃ r, s.rowOf row.id = .ok r := by
  unfold rowOf selectJob
  split
  · exact ⟨_, rfl⟩
  · rename_i hnone
    rw [List.find?_eq_none] at hnone
    exact absurd (by simp) (hnone row h)

/-- The next revision of a row has no event yet. -/
theorem Sound.fresh (hs : Sound cfg s) {row : JobRow} (hrow : row ∈ s.jobs) (kind : String) :
    ∀ e ∈ s.events, ¬(e.jobId = row.id ∧ e.revision = row.revision + 1 ∧ e.kind = kind) := by
  rintro e he ⟨hid, hrevision, -⟩
  obtain ⟨r, hr, hre, hle⟩ := hs.dated e he
  obtain rfl := Table.eq_of_key JobRow.id hs.wellFormed.jobIds hr hrow (hre.trans hid)
  omega

/-- An update of one row and its event; what is left is its notification. -/
theorem move_logged (hs : Sound cfg s) {m : Move} (hrow : m.row ∈ s.jobs) (hid : m.row'.id = m.row.id)
    {clause : JobRow → Bool} {f : JobRow → JobRow} (hf : f m.row = m.row')
    (hclause : ∀ r, clause r = true → r.id = m.row.id) (hmet : clause m.row = true) :
    ∃ s₁, (s.updateJobs cfg clause f).event cfg m.now m.row.id (m.row.revision + 1) m.kind = .ok s₁ ∧
      s₁.rowOf m.row.id = .ok m.row' ∧ Moved cfg { m with announced := false } s s₁ ∧
        ∀ s₂, s₁.notify cfg m.now m.row' = .ok s₂ →
          Moved cfg { m with announced := true } s s₂ ∧ s₂.rowOf m.row.id = .ok m.row' := by
  have hjobs : Table.update clause f s.jobs = replaceJob m.row.id m.row' s.jobs :=
    hf ▸ update_eq_replaceJob hs.wellFormed.jobIds hrow hclause hmet
  obtain ⟨s₁, hevent⟩ := event_returns (s := s.updateJobs cfg clause f) cfg m.now (hs.fresh hrow m.kind)
  obtain ⟨bytes, hs₁⟩ := event_eq hevent
  have hmem : m.row' ∈ s₁.jobs := by
    rw [hs₁]
    change m.row' ∈ Table.update clause f s.jobs
    rw [hjobs, mem_replaceJob]
    exact Or.inr ⟨rfl, m.row, hrow, rfl⟩
  obtain ⟨r, hread⟩ := rowOf_returns hmem
  rw [hid] at hread
  have hr : r = m.row' := rowOf_replaced m.row hid (by rw [hs₁]; exact hjobs) hread
  subst hr
  refine ⟨s₁, hevent, hread, ?_, fun s₂ hnotify => ?_⟩
  · rw [hs₁]
    exact ⟨hjobs, rfl, rfl, by simp [Move.notes, updateJobs], by simp [Move.notes, updateJobs], rfl, rfl⟩
  · obtain ⟨bytes', hs₂⟩ := notify_eq hnotify
    refine ⟨?_, by rw [hs₂]; exact hread⟩
    rw [hs₂, hs₁]
    exact ⟨hjobs, rfl, rfl, by simp [Move.notes, updateJobs], by simp [Move.notes, updateJobs], rfl, rfl⟩

/-! ## The recoveries -/

/-- What a recovery does to an attempt whose executor is gone. -/
def lostMove (lostReason : String) (clock : Reading) (row : JobRow) : Move :=
  ⟨row, lostRow (clock.later row.id) lostReason row row, clock.later row.id, "job." ++ (lostPhase row.cancelled).value, true⟩

/-- A row that can be announced is settled as lost, whatever its clause. -/
theorem settleLost_returns {lostReason : String} {clock : Reading} {call : StoreCall} (clause : JobRow → Bool) {row : JobRow}
    (hs : Sound cfg s) (hx : Exact cfg s) (hrow : row ∈ s.jobs) (hnotifiable : row.Notifiable)
    (hclause : ∀ r, clause r = true → r.id = row.id) (hmet : clause row = true)
    (hstep : RowStep s.drawn clock row call (lostRow (clock.later row.id) lostReason row row)
      (some ("job." ++ (lostPhase row.cancelled).value))
      (notifications (clock.later row.id) s.drawn (lostRow (clock.later row.id) lostReason row row))) :
    ∃ s', s.settleLost cfg (clock.later row.id) lostReason clause row = .ok s' ∧ Moved cfg (lostMove lostReason clock row) s s' ∧
      Sound cfg s' ∧ Exact cfg s' := by
  obtain ⟨spec, hspec⟩ := hs.readable row hrow
  have hholds : (lostRow (clock.later row.id) lostReason row row).Holds spec := hspec.of_specJson rfl
  obtain ⟨s₁, hevent, hread, -, hmoved⟩ :=
    move_logged (m := lostMove lostReason clock row) (f := lostRow (clock.later row.id) lostReason row) hs hrow rfl rfl hclause hmet
  obtain ⟨s₂, hnotify⟩ := notify_returns cfg s₁ (clock.later row.id) hholds hnotifiable
  have hsettle : s.settleLost cfg (clock.later row.id) lostReason clause row = .ok s₂ := by
    simp only [Store.settleLost, bind_eq_ok]
    exact ⟨s₁, hevent, _, hread, hnotify⟩
  obtain ⟨hchange, -⟩ := settleLost_change hs.wellFormed hrow hclause hmet hstep hsettle
  exact ⟨s₂, hsettle, (hmoved s₂ hnotify).1,
    ⟨hs.wellFormed.change hchange, hs.readable.change hchange, sequenced_stable.settleLost hs.sequenced hsettle,
      hs.dated.change hs.wellFormed hchange⟩, exact_stable.settleLost hx hsettle⟩

/-- A recovery raises for the endpoint of a row that it can not announce. -/
theorem settleLost_raises (lostReason : String) (clock : Reading) (clause : JobRow → Bool) {row : JobRow} (hs : Sound cfg s)
    (hrow : row ∈ s.jobs) (hnotifiable : ¬row.Notifiable) (hclause : ∀ r, clause r = true → r.id = row.id) (hmet : clause row = true) :
    ∃ endpoint ∈ row.unencodable, s.settleLost cfg (clock.later row.id) lostReason clause row = .error
      (.py (.unicodeEncodeError endpoint)) := by
  obtain ⟨spec, hspec⟩ := hs.readable row hrow
  have hholds : (lostRow (clock.later row.id) lostReason row row).Holds spec := hspec.of_specJson rfl
  obtain ⟨s₁, hevent, hread, -⟩ :=
    move_logged (m := lostMove lostReason clock row) (f := lostRow (clock.later row.id) lostReason row) hs hrow rfl rfl hclause hmet
  obtain ⟨endpoint, hendpoint, hraised⟩ := notify_raises cfg s₁ (clock.later row.id) hholds hnotifiable
  refine ⟨endpoint, hendpoint, ?_⟩
  unfold Store.settleLost
  exact bind_eq_error.2 (.inr ⟨s₁, hevent, bind_eq_error.2 (.inr ⟨_, hread, hraised⟩)⟩)

/-- The rows that are left to a recovery: they are there, and held. -/
structure Left (rows : List JobRow) (s : Store) : Prop where
  ids : (rows.map (·.id)).Nodup
  rows : ∀ r ∈ rows, r ∈ s.jobs ∧ r.phase.held = true

/-- A row that was moved leaves the others to the recovery. -/
theorem Left.tail {row : JobRow} {rows : List JobRow} {m : Move} (h : Left (row :: rows) s) (hm : Moved cfg m s s')
    (hrow : m.row = row) : Left rows s' := by
  obtain ⟨hnot, hids⟩ := List.nodup_cons.1 h.ids
  refine ⟨hids, fun r hr => ?_⟩
  obtain ⟨hmem, hheld⟩ := h.rows r (List.mem_cons_of_mem _ hr)
  exact ⟨hm.mem hmem fun heq => hnot (List.mem_map.2 ⟨r, hr, heq.trans (congrArg JobRow.id hrow)⟩), hheld⟩

/-- The rows after the first one are left as well. -/
theorem Left.rest {row : JobRow} {rows : List JobRow} (h : Left (row :: rows) s) : Left rows s :=
  ⟨(List.nodup_cons.1 h.ids).2, fun r hr => h.rows r (List.mem_cons_of_mem _ hr)⟩

/-- The recovery moves every row that is left, where each can be announced. -/
theorem interrupted_loop (clock : Reading) {rows : List JobRow} (hs : Sound cfg s) (hx : Exact cfg s) (hleft : Left rows s)
    (hnotifiable : ∀ r ∈ rows, r.Notifiable) :
    ∃ s', rows.foldlM (recoverInterruptedRow cfg clock) s = .ok s' ∧
      MovedAll cfg (rows.map (lostMove "service_restarted" clock)) s s' ∧ Exact cfg s' := by
  induction rows generalizing s with
  | nil => exact ⟨s, rfl, rfl, hx⟩
  | cons row rows ih =>
    obtain ⟨hrow, hheld⟩ := hleft.rows row List.mem_cons_self
    obtain ⟨s₁, hsettle, hmoved, hs₁, hx₁⟩ := settleLost_returns (fun r => r.id = row.id) hs hx hrow
      (hnotifiable row List.mem_cons_self) (fun r hr => by simpa using hr) (by simp) (.interrupted hheld)
    obtain ⟨s', hloop, hrest, hx'⟩ := ih hs₁ hx₁ (hleft.tail hmoved rfl) fun r hr => hnotifiable r (List.mem_cons_of_mem _ hr)
    refine ⟨s', ?_, ⟨s₁, hmoved, hrest⟩, hx'⟩
    rw [List.foldlM_cons, bind_eq_ok]
    exact ⟨s₁, hsettle, hloop⟩

/-- The recovery after a restart raises at the first row that it can not announce. -/
theorem interrupted_loop_raises (clock : Reading) {rows : List JobRow} (hs : Sound cfg s) (hx : Exact cfg s) (hleft : Left rows s)
    (hnotifiable : ¬∀ r ∈ rows, r.Notifiable) :
    ∃ row ∈ rows, ∃ endpoint ∈ row.unencodable,
      rows.foldlM (recoverInterruptedRow cfg clock) s = .error (.py (.unicodeEncodeError endpoint)) := by
  induction rows generalizing s with
  | nil => exact (hnotifiable fun _ hr => absurd hr List.not_mem_nil).elim
  | cons row rows ih =>
    obtain ⟨hrow, hheld⟩ := hleft.rows row List.mem_cons_self
    by_cases hfirst : row.Notifiable
    · obtain ⟨s₁, hsettle, hmoved, hs₁, hx₁⟩ := settleLost_returns (fun r => r.id = row.id) hs hx hrow hfirst
        (fun r hr => by simpa using hr) (by simp) (.interrupted hheld)
      obtain ⟨bad, hbad, endpoint, hendpoint, hraised⟩ := ih hs₁ hx₁ (hleft.tail hmoved rfl)
        fun hrest => hnotifiable (List.forall_mem_cons.2 ⟨hfirst, hrest⟩)
      refine ⟨bad, List.mem_cons_of_mem _ hbad, endpoint, hendpoint, ?_⟩
      rw [List.foldlM_cons]
      exact bind_eq_error.2 (.inr ⟨s₁, hsettle, hraised⟩)
    · obtain ⟨endpoint, hendpoint, hraised⟩ := settleLost_raises "service_restarted" clock
        (fun r => r.id = row.id) hs hrow hfirst (fun r hr => by simpa using hr) (by simp)
      refine ⟨row, List.mem_cons_self, endpoint, hendpoint, ?_⟩
      rw [List.foldlM_cons]
      exact bind_eq_error.2 (.inl hraised)

/-- A row whose lease is over by the time it is looked at is settled. -/
theorem recoverExpiredRow_met (clock : Reading) {row : JobRow} (n : Nat) (hs : Sound cfg s) (hrow : row ∈ s.jobs)
    (hlater : leaseExpired (clock.later row.id) row = true) :
    let clause := fun (r : JobRow) => r.id = row.id && r.revision = row.revision && leaseExpired (clock.later row.id) r
    (∀ r, clause r = true → r.id = row.id) ∧ clause row = true ∧
      recoverExpiredRow cfg clock (n, s) row = (do
        let s ← s.settleLost cfg (clock.later row.id) "executor_lease_expired" clause row
        pure (n + 1, s)) := by
  intro clause
  have hclause : ∀ r, clause r = true → r.id = row.id := fun r hr => by
    simp only [clause, Bool.and_eq_true, decide_eq_true_eq] at hr
    exact hr.1.1
  have hmet : clause row = true := by simp [clause, hlater]
  refine ⟨hclause, hmet, ?_⟩
  have hcount := Table.rowcount_key hs.wellFormed.jobIds hrow hclause hmet
  unfold recoverExpiredRow
  exact if_neg (by rw [hcount]; nofun)

/-- A row whose lease was renewed meanwhile is left. -/
theorem recoverExpiredRow_passed (clock : Reading) {row : JobRow} (n : Nat) (hs : Sound cfg s) (hrow : row ∈ s.jobs)
    (hlater : leaseExpired (clock.later row.id) row = false) : recoverExpiredRow cfg clock (n, s) row = .ok (n, s) := by
  have hcount : Table.rowcount (fun r : JobRow => r.id = row.id && r.revision = row.revision &&
      leaseExpired (clock.later row.id) r) s.jobs = 0 := by
    refine Table.rowcount_eq_zero.2 fun r hr => ?_
    by_cases hid : r.id = row.id
    · obtain rfl := Table.eq_of_key JobRow.id hs.wellFormed.jobIds hr hrow hid
      simp [hlater]
    · simp [hid]
  unfold recoverExpiredRow
  exact if_pos (by rw [hcount]; nofun)

/-- The reconcile moves every row that is left whose lease is over, where each of these can be announced. -/
theorem expired_loop (clock : Reading) (excludeJobIds : List Uuid) {rows : List JobRow} (n : Nat) (hs : Sound cfg s)
    (hx : Exact cfg s) (hleft : Left rows s) (hexpired : ∀ r ∈ rows, r.id ∉ excludeJobIds ∧ leaseExpired clock.now r = true)
    (hnotifiable : ∀ r ∈ rows, leaseExpired (clock.later r.id) r = true → r.Notifiable) :
    ∃ n' s', rows.foldlM (recoverExpiredRow cfg clock) (n, s) = .ok (n', s') ∧
      MovedAll cfg ((rows.filter fun r => leaseExpired (clock.later r.id) r).map (lostMove "executor_lease_expired" clock)) s s' ∧
        Exact cfg s' := by
  induction rows generalizing n s with
  | nil => exact ⟨n, s, rfl, rfl, hx⟩
  | cons row rows ih =>
    obtain ⟨hrow, hheld⟩ := hleft.rows row List.mem_cons_self
    obtain ⟨hexcluded, hlease⟩ := hexpired row List.mem_cons_self
    have hnotifiable' := fun r hr => hnotifiable r (List.mem_cons_of_mem _ hr)
    have hexpired' := fun r hr => hexpired r (List.mem_cons_of_mem _ hr)
    rw [List.foldlM_cons]
    cases hlater : leaseExpired (clock.later row.id) row with
    | true =>
      obtain ⟨hclause, hmet, hstep⟩ := recoverExpiredRow_met clock n hs hrow hlater
      obtain ⟨s₁, hsettle, hmoved, hs₁, hx₁⟩ := settleLost_returns _ hs hx hrow (hnotifiable row List.mem_cons_self hlater) hclause hmet
        (.leaseExpired excludeJobIds hheld hexcluded hlease)
      obtain ⟨n', s', hloop, hrest, hx'⟩ := ih (n + 1) hs₁ hx₁ (hleft.tail hmoved rfl) hexpired' hnotifiable'
      refine ⟨n', s', ?_, ?_, hx'⟩
      · exact bind_eq_ok.2 ⟨(n + 1, s₁), by rw [hstep]; exact bind_eq_ok.2 ⟨s₁, hsettle, rfl⟩, hloop⟩
      · rw [List.filter_cons_of_pos (p := fun r : JobRow => leaseExpired (clock.later r.id) r) hlater]
        exact ⟨s₁, hmoved, hrest⟩
    | false =>
      obtain ⟨n', s', hloop, hrest, hx'⟩ := ih n hs hx hleft.rest hexpired' hnotifiable'
      refine ⟨n', s', bind_eq_ok.2 ⟨(n, s), recoverExpiredRow_passed clock n hs hrow hlater, hloop⟩, ?_, hx'⟩
      rw [List.filter_cons_of_neg (p := fun r : JobRow => leaseExpired (clock.later r.id) r) (by rw [hlater]; nofun)]
      exact hrest

/-- The recovery of expired leases raises at the first row that it can not announce. -/
theorem expired_loop_raises (clock : Reading) (excludeJobIds : List Uuid) {rows : List JobRow} (n : Nat) (hs : Sound cfg s)
    (hx : Exact cfg s) (hleft : Left rows s) (hexpired : ∀ r ∈ rows, r.id ∉ excludeJobIds ∧ leaseExpired clock.now r = true)
    (hnotifiable : ¬∀ r ∈ rows, leaseExpired (clock.later r.id) r = true → r.Notifiable) :
    ∃ row ∈ rows, leaseExpired (clock.later row.id) row = true ∧ ∃ endpoint ∈ row.unencodable,
      rows.foldlM (recoverExpiredRow cfg clock) (n, s) = .error (.py (.unicodeEncodeError endpoint)) := by
  induction rows generalizing n s with
  | nil => exact (hnotifiable fun _ hr => absurd hr List.not_mem_nil).elim
  | cons row rows ih =>
    obtain ⟨hrow, hheld⟩ := hleft.rows row List.mem_cons_self
    obtain ⟨hexcluded, hlease⟩ := hexpired row List.mem_cons_self
    have hexpired' := fun r hr => hexpired r (List.mem_cons_of_mem _ hr)
    -- what is raised further on
    have hlate : ∀ {n' s'}, recoverExpiredRow cfg clock (n, s) row = .ok (n', s') →
        (∃ bad ∈ rows, leaseExpired (clock.later bad.id) bad = true ∧ ∃ endpoint ∈ bad.unencodable,
          rows.foldlM (recoverExpiredRow cfg clock) (n', s') = .error (.py (.unicodeEncodeError endpoint))) →
        ∃ bad ∈ row :: rows, leaseExpired (clock.later bad.id) bad = true ∧ ∃ endpoint ∈ bad.unencodable,
          (row :: rows).foldlM (recoverExpiredRow cfg clock) (n, s) = .error (.py (.unicodeEncodeError endpoint)) := by
      rintro n' s' hstep ⟨bad, hbad, hover, endpoint, hendpoint, hraised⟩
      refine ⟨bad, List.mem_cons_of_mem _ hbad, hover, endpoint, hendpoint, ?_⟩
      rw [List.foldlM_cons]
      exact bind_eq_error.2 (.inr ⟨_, hstep, hraised⟩)
    cases hlater : leaseExpired (clock.later row.id) row with
    | true =>
      obtain ⟨hclause, hmet, hstep⟩ := recoverExpiredRow_met clock n hs hrow hlater
      by_cases hfirst : row.Notifiable
      · obtain ⟨s₁, hsettle, hmoved, hs₁, hx₁⟩ := settleLost_returns _ hs hx hrow hfirst hclause hmet
          (.leaseExpired excludeJobIds hheld hexcluded hlease)
        refine hlate (show recoverExpiredRow cfg clock (n, s) row = .ok (n + 1, s₁) by rw [hstep]; exact bind_eq_ok.2 ⟨s₁, hsettle, rfl⟩) ?_
        exact ih (n + 1) hs₁ hx₁ (hleft.tail hmoved rfl) hexpired' fun hrest =>
          hnotifiable (List.forall_mem_cons.2 ⟨fun _ => hfirst, hrest⟩)
      · obtain ⟨endpoint, hendpoint, hraised⟩ := settleLost_raises "executor_lease_expired" clock _ hs hrow hfirst
          hclause hmet
        refine ⟨row, List.mem_cons_self, hlater, endpoint, hendpoint, ?_⟩
        rw [List.foldlM_cons, hstep]
        exact bind_eq_error.2 (.inl (bind_eq_error.2 (.inl hraised)))
    | false =>
      refine hlate (recoverExpiredRow_passed clock n hs hrow hlater) ?_
      refine ih n hs hx hleft.rest hexpired' fun hrest => hnotifiable (List.forall_mem_cons.2 ⟨fun hover => ?_, hrest⟩)
      rw [hlater] at hover
      cases hover

/-! ## The capacity -/

/-- The rows may grow by `g`. -/
def Fits (cfg : StoreConfig) (g : Int) (s : Store) : Prop := s.metadataBytes + g ≤ cfg.maxMetadataBytes ∨ g ≤ 0

/-- A body that raises is rolled back. -/
theorem transaction_error {α : Type} {body : Store → Except StoreError (α × Store)} {e : StoreError} (h : body s = .error e) :
    transaction cfg body s = (.error e, s) := by
  unfold transaction
  rw [h]

/-- The end of a transaction whose body returned. -/
def committed {α : Type} (cfg : StoreConfig) (a : α) (s s' : Store) : Outcome α :=
  if s'.metadataBytes > cfg.maxMetadataBytes ∧ s'.metadataBytes > s.metadataBytes then
    (.error (.admissionLimited "metadata capacity is full"), s)
  else
    (.ok a, s')

/-- A body that returns is committed where it fits. -/
theorem transaction_committed {α : Type} {body : Store → Except StoreError (α × Store)} {a : α} (h : body s = .ok (a, s')) :
    transaction cfg body s = committed cfg a s s' := by
  unfold transaction
  rw [h]
  rfl

/-- It commits, or raises, as its growth fits or does not. -/
theorem committed_fits {α : Type} {a : α} {g : Int} (hx : Exact cfg s) (hx' : Exact cfg s') (hg : rowBytes cfg s' = rowBytes cfg s + g) :
    (Fits cfg g s → committed cfg a s s' = (.ok a, s')) ∧
      (¬Fits cfg g s → committed cfg a s s' = (.error (.admissionLimited "metadata capacity is full"), s)) := by
  have hbytes : s'.metadataBytes = s.metadataBytes + g := by
    unfold Exact at hx hx'
    omega
  unfold committed Fits
  rw [hbytes]
  exact ⟨fun hfits => if_neg (by omega), fun hfits => if_pos (by omega)⟩

/-- A transaction whose body returns commits, or raises, as its growth fits or does not. -/
theorem transaction_fits {α : Type} {body : Store → Except StoreError (α × Store)} {a : α} {g : Int} (hx : Exact cfg s)
    (hb : body s = .ok (a, s')) (hx' : Exact cfg s') (hg : rowBytes cfg s' = rowBytes cfg s + g) :
    (Fits cfg g s → transaction cfg body s = (.ok a, s')) ∧
      (¬Fits cfg g s → transaction cfg body s = (.error (.admissionLimited "metadata capacity is full"), s)) := by
  rw [transaction_committed hb]
  exact committed_fits hx hx' hg

/-- By how much the recovery after a restart makes the rows grow. -/
def interruptedGrowth (cfg : StoreConfig) (clock : Reading) (s : Store) : Int :=
  Table.updateDelta (OutboxRow.bytes cfg.host) (fun o => o.state = .delivering)
      (fun o => { o with state := .pending, nextAttemptAt := clock.now, deliveryAttemptId := none }) s.outbox +
    growth cfg ((Table.select (fun r => r.phase.held) s.jobs).map (lostMove "service_restarted" clock)) s

/-- The attempts whose lease ran out, which their executor does not hold. -/
def expired (clock : Reading) (excludeJobIds : List Uuid) (s : Store) : List JobRow :=
  (((Table.select (fun r => r.phase.held && leaseExpired clock.now r) s.jobs).filter fun row => !excludeJobIds.contains row.id).filter
    fun row => leaseExpired (clock.later row.id) row)

/-- By how much the recovery of expired leases makes the rows grow. -/
def expiredGrowth (cfg : StoreConfig) (clock : Reading) (excludeJobIds : List Uuid) (s : Store) : Int :=
  growth cfg ((s.expired clock excludeJobIds).map (lostMove "executor_lease_expired" clock)) s

/-- What a request to cancel does to an active job. -/
def cancelMove (now : Instant) (row : JobRow) : Move :=
  ⟨row, cancelRequestedRow now row row, now, "job.cancel_requested", row.phase = .queued⟩

/-- What a request to cancel does to the job, unless it is terminal, has the intent already, or is not there. -/
def cancelMoves (clock : Reading) (jobId : Uuid) (tenantId : Option String) (s : Store) : List Move :=
  match s.selectJob jobId tenantId with
  | .ok row =>
    if row.phase.terminal || row.cancelled then [] else [cancelMove clock.now row]
  | .error _ => []

/-- What the recovery after a restart settles is there once the outbox was released. -/
theorem interrupted_left (clock : Reading) (hs : Sound cfg s) (hx : Exact cfg s) :
    let s₀ := s.updateOutbox cfg (fun o => o.state = .delivering) fun o =>
      { o with state := .pending, nextAttemptAt := clock.now, deliveryAttemptId := none }
    Sound cfg s₀ ∧ Exact cfg s₀ ∧ Left (Table.select (fun r => r.phase.held) s.jobs) s₀ := by
  intro s₀
  have hreleased : Change cfg .recoverInterrupted clock s s₀ := released_change
  exact ⟨⟨hs.wellFormed.change hreleased, hs.readable.change hreleased, sequenced_stable.updateOutbox _ _ hs.sequenced,
    hs.dated.change hs.wellFormed hreleased⟩, hx.updateOutbox _ _,
    ⟨Table.nodup_map_select hs.wellFormed.jobIds, fun r hr => Table.mem_select.1 hr⟩⟩

/-- The recovery after a restart raises when an attempt can not be announced. -/
theorem recoverInterrupted_raises (clock : Reading) (hs : Sound cfg s) (hx : Exact cfg s)
    (hnotifiable : ¬∀ row ∈ s.jobs, row.phase.held = true → row.Notifiable) :
    ∃ row ∈ s.jobs, row.phase.held = true ∧ ∃ endpoint ∈ row.unencodable,
      recoverInterrupted cfg clock s = (.error (.py (.unicodeEncodeError endpoint)), s) := by
  obtain ⟨hs₀, hx₀, hleft⟩ := interrupted_left clock hs hx
  obtain ⟨row, hrow, endpoint, hendpoint, hraised⟩ := interrupted_loop_raises clock hs₀ hx₀ hleft fun hall =>
    hnotifiable fun row hrow hheld => hall row (Table.mem_select.2 ⟨hrow, hheld⟩)
  obtain ⟨hmem, hheld⟩ := Table.mem_select.1 hrow
  exact ⟨row, hmem, hheld, endpoint, hendpoint, transaction_error (bind_eq_error.2 (.inl hraised))⟩

/-- The recovery after a restart settles every attempt, or raises because the rows would outgrow their limit. -/
theorem recoverInterrupted_fits (clock : Reading) (hs : Sound cfg s) (hx : Exact cfg s)
    (hnotifiable : ∀ row ∈ s.jobs, row.phase.held = true → row.Notifiable) :
    (Fits cfg (interruptedGrowth cfg clock s) s →
      (∃ n, (recoverInterrupted cfg clock s).1 = .ok n) ∧ ∀ row ∈ s.jobs, row.phase.held = true →
        ∃ r ∈ (recoverInterrupted cfg clock s).2.jobs, r.id = row.id ∧ r.phase = lostPhase row.cancelled) ∧
    (¬Fits cfg (interruptedGrowth cfg clock s) s →
      (recoverInterrupted cfg clock s).1 = .error (.admissionLimited "metadata capacity is full")) := by
  let s₀ := s.updateOutbox cfg (fun o => o.state = .delivering) fun o =>
    { o with state := .pending, nextAttemptAt := clock.now, deliveryAttemptId := none }
  obtain ⟨hs₀, hx₀, hleft⟩ := interrupted_left clock hs hx
  have hids : (((Table.select (fun r => r.phase.held) s.jobs).map (lostMove "service_restarted" clock)).map (·.row.id)).Nodup := by
    rw [List.map_map]
    exact hleft.ids
  have hrows : ∀ m ∈ (Table.select (fun r => r.phase.held) s.jobs).map (lostMove "service_restarted" clock),
      m.row ∈ s₀.jobs ∧ m.row'.id = m.row.id := by
    intro m hm
    obtain ⟨row, hrow, rfl⟩ := List.mem_map.1 hm
    exact ⟨(hleft.rows row hrow).1, rfl⟩
  obtain ⟨s', hloop, hmoved, hx'⟩ := interrupted_loop clock hs₀ hx₀ hleft fun r hr =>
    hnotifiable r (Table.mem_select.1 hr).1 (Table.mem_select.1 hr).2
  have hg : rowBytes cfg s' = rowBytes cfg s + interruptedGrowth cfg clock s := by
    have hupdated : rowBytes cfg s₀ = rowBytes cfg s + Table.updateDelta (OutboxRow.bytes cfg.host) (fun o => o.state = .delivering)
        (fun o => { o with state := .pending, nextAttemptAt := clock.now, deliveryAttemptId := none }) s.outbox := by
      rw [← hx₀, ← hx]
      rfl
    rw [hmoved.rowBytes hs₀.wellFormed.jobIds hs₀.sequenced hrows hids, hupdated, interruptedGrowth, Int.add_assoc]
    rfl
  have hends : (Fits cfg (interruptedGrowth cfg clock s) s →
        recoverInterrupted cfg clock s = (.ok (Table.select (fun r => r.phase.held) s.jobs).length, s')) ∧
      (¬Fits cfg (interruptedGrowth cfg clock s) s →
        recoverInterrupted cfg clock s = (.error (.admissionLimited "metadata capacity is full"), s)) := by
    refine transaction_fits hx ?_ hx' hg
    dsimp only
    rw [bind_eq_ok]
    exact ⟨s', hloop, rfl⟩
  refine ⟨fun hfits => ?_, fun hfits => congrArg Prod.fst (hends.2 hfits)⟩
  rw [hends.1 hfits]
  refine ⟨⟨_, rfl⟩, fun row hrow hheld => ?_⟩
  have hmem := List.mem_map_of_mem (f := lostMove "service_restarted" clock)
    (Table.mem_select (p := fun r => r.phase.held).2 ⟨hrow, hheld⟩)
  exact ⟨_, hmoved.settled hrows hids (Or.inr ⟨_, hmem, rfl⟩), rfl, rfl⟩

/-- The rows that the recovery of expired leases reads. -/
theorem expired_left (clock : Reading) (excludeJobIds : List Uuid) (hs : Sound cfg s) :
    let rows := (Table.select (fun r => r.phase.held && leaseExpired clock.now r) s.jobs).filter fun row => !excludeJobIds.contains row.id
    Left rows s ∧ ∀ r ∈ rows, r.id ∉ excludeJobIds ∧ leaseExpired clock.now r = true := by
  intro rows
  have hselected : ∀ r ∈ rows, (r ∈ s.jobs ∧ r.phase.held = true) ∧ r.id ∉ excludeJobIds ∧ leaseExpired clock.now r = true := by
    intro r hr
    obtain ⟨hr, hexcluded⟩ := List.mem_filter.1 hr
    obtain ⟨hr, hp⟩ := Table.mem_select.1 hr
    obtain ⟨hheld, hlease⟩ := Bool.and_eq_true_iff.1 hp
    exact ⟨⟨hr, hheld⟩, by simpa using hexcluded, hlease⟩
  exact ⟨⟨(Table.nodup_map_select hs.wellFormed.jobIds).sublist (List.filter_sublist.map _), fun r hr => (hselected r hr).1⟩,
    fun r hr => (hselected r hr).2⟩

/-- The recovery of expired leases raises when one of their attempts can not be announced. -/
theorem recoverExpiredLeases_raises (clock : Reading) (excludeJobIds : List Uuid) (hs : Sound cfg s) (hx : Exact cfg s)
    (hnotifiable : ¬∀ row ∈ s.expired clock excludeJobIds, row.Notifiable) :
    ∃ row ∈ s.expired clock excludeJobIds, ∃ endpoint ∈ row.unencodable,
      recoverExpiredLeases cfg clock excludeJobIds s = (.error (.py (.unicodeEncodeError endpoint)), s) := by
  obtain ⟨hleft, hexpired⟩ := expired_left clock excludeJobIds hs
  obtain ⟨row, hrow, hover, endpoint, hendpoint, hraised⟩ := expired_loop_raises clock excludeJobIds 0 hs hx hleft hexpired fun hall =>
    hnotifiable fun row hrow => hall row (List.mem_filter.1 hrow).1 (List.mem_filter.1 hrow).2
  exact ⟨row, List.mem_filter.2 ⟨hrow, hover⟩, endpoint, hendpoint, transaction_error hraised⟩

/-- The recovery of expired leases settles their attempts, or raises because the rows would outgrow their limit. -/
theorem recoverExpiredLeases_fits (clock : Reading) (excludeJobIds : List Uuid) (hs : Sound cfg s) (hx : Exact cfg s)
    (hnotifiable : ∀ row ∈ s.expired clock excludeJobIds, row.Notifiable) :
    (Fits cfg (expiredGrowth cfg clock excludeJobIds s) s →
      (∃ n, (recoverExpiredLeases cfg clock excludeJobIds s).1 = .ok n) ∧ ∀ row ∈ s.expired clock excludeJobIds,
        ∃ r ∈ (recoverExpiredLeases cfg clock excludeJobIds s).2.jobs, r.id = row.id ∧ r.phase = lostPhase row.cancelled) ∧
    (¬Fits cfg (expiredGrowth cfg clock excludeJobIds s) s →
      (recoverExpiredLeases cfg clock excludeJobIds s).1 = .error (.admissionLimited "metadata capacity is full")) := by
  obtain ⟨hleft, hexpired⟩ := expired_left clock excludeJobIds hs
  have hids : (((s.expired clock excludeJobIds).map (lostMove "executor_lease_expired" clock)).map (·.row.id)).Nodup := by
    rw [List.map_map]
    exact hleft.ids.sublist (List.filter_sublist.map _)
  have hrows : ∀ m ∈ (s.expired clock excludeJobIds).map (lostMove "executor_lease_expired" clock),
      m.row ∈ s.jobs ∧ m.row'.id = m.row.id := by
    intro m hm
    obtain ⟨row, hrow, rfl⟩ := List.mem_map.1 hm
    exact ⟨(hleft.rows row (List.mem_filter.1 hrow).1).1, rfl⟩
  obtain ⟨n, s', hloop, hmoved, hx'⟩ := expired_loop clock excludeJobIds 0 hs hx hleft hexpired fun r hr hover =>
    hnotifiable r (List.mem_filter.2 ⟨hr, hover⟩)
  have hg := hmoved.rowBytes hs.wellFormed.jobIds hs.sequenced hrows hids
  have hends : (Fits cfg (expiredGrowth cfg clock excludeJobIds s) s →
        recoverExpiredLeases cfg clock excludeJobIds s = (.ok n, s')) ∧
      (¬Fits cfg (expiredGrowth cfg clock excludeJobIds s) s →
        recoverExpiredLeases cfg clock excludeJobIds s = (.error (.admissionLimited "metadata capacity is full"), s)) :=
    transaction_fits hx hloop hx' hg
  refine ⟨fun hfits => ?_, fun hfits => congrArg Prod.fst (hends.2 hfits)⟩
  rw [hends.1 hfits]
  refine ⟨⟨_, rfl⟩, fun row hrow => ?_⟩
  have hmem := List.mem_map_of_mem (f := lostMove "executor_lease_expired" clock) hrow
  exact ⟨_, hmoved.settled hrows hids (Or.inr ⟨_, hmem, rfl⟩), rfl, rfl⟩

/-- To get a job is not refused for capacity. -/
theorem get_not_limited (jobId : Uuid) (tenantId : Option String) (s : Store) (message : String) :
    s.get jobId tenantId ≠ .error (.admissionLimited message) := by
  unfold Store.get
  intro h
  rcases bind_eq_error.1 h with h | ⟨row, -, h⟩
  · unfold selectJob at h
    split at h <;> cases h
  · unfold rowToJob at h
    split at h <;> cases h

/-- A request to cancel an active job. A queued job is announced, so the request raises if that is impossible; any other ends by the
capacity. -/
theorem requestCancel_active (clock : Reading) {jobId : Uuid} {tenantId : Option String} {row : JobRow} (hs : Sound cfg s)
    (hread : s.selectJob jobId tenantId = .ok row) (hactive : ¬(row.phase.terminal || row.cancelled) = true) :
    ((row.phase = .queued → row.Notifiable) →
      ∃ s', Moved cfg (cancelMove clock.now row) s s' ∧ (Exact cfg s → Exact cfg s') ∧
        s'.rowOf row.id = .ok (cancelRequestedRow clock.now row row) ∧
        requestCancel cfg clock jobId tenantId s = returnedOrGet jobId (committed cfg none s s')) ∧
    (row.phase = .queued → ¬row.Notifiable → ∃ endpoint ∈ row.unencodable,
      requestCancel cfg clock jobId tenantId s = (.error (.py (.unicodeEncodeError endpoint)), s)) := by
  obtain ⟨hrow, rfl, -⟩ := mem_of_selectJob hread
  obtain ⟨spec, hspec⟩ := hs.readable row hrow
  have hholds : (cancelMove clock.now row).row'.Holds (JobRow.cancelledSpec spec) := hspec.cancel rfl
  have hsame : (cancelMove clock.now row).row'.Notifiable ↔ row.Notifiable := hspec.notifiable_cancel rfl
  have hclause : ∀ r : JobRow, (r.id = row.id && r.revision = row.revision) = true → r.id = row.id := by
    intro r hr
    simp only [Bool.and_eq_true, decide_eq_true_eq] at hr
    exact hr.1
  obtain ⟨s₁, hevent, hread', hquiet, hannounced⟩ :=
    move_logged (m := cancelMove clock.now row) (f := cancelRequestedRow clock.now row) hs hrow rfl rfl hclause (by simp [cancelMove])
  have hx₁ (hx : Exact cfg s) : Exact cfg s₁ := (hx.updateJobs _ _).event hevent
  constructor
  · intro hnotifiable
    by_cases hqueued : row.phase = .queued
    · obtain ⟨s₂, hnotify⟩ := notify_returns cfg s₁ clock.now hholds (hsame.2 (hnotifiable hqueued))
      obtain ⟨hmoved, hread₂⟩ := hannounced s₂ hnotify
      have hflag : { cancelMove clock.now row with announced := true } = cancelMove clock.now row := by simp [cancelMove, hqueued]
      rw [hflag] at hmoved
      refine ⟨s₂, hmoved, fun hx => exact_stable.notify (hx₁ hx) hnotify, hread₂,
        congrArg (returnedOrGet row.id) (transaction_committed ?_)⟩
      refine bind_eq_ok.2 ⟨row, hread, ?_⟩
      rw [if_neg hactive]
      refine bind_eq_ok.2 ⟨s₁, hevent, bind_eq_ok.2 ⟨_, hread', ?_⟩⟩
      rw [if_pos hqueued]
      exact bind_eq_ok.2 ⟨s₂, hnotify, rfl⟩
    · have hflag : { cancelMove clock.now row with announced := false } = cancelMove clock.now row := by simp [cancelMove, hqueued]
      rw [hflag] at hquiet
      refine ⟨s₁, hquiet, hx₁, hread', congrArg (returnedOrGet row.id) (transaction_committed ?_)⟩
      refine bind_eq_ok.2 ⟨row, hread, ?_⟩
      rw [if_neg hactive]
      refine bind_eq_ok.2 ⟨s₁, hevent, bind_eq_ok.2 ⟨_, hread', ?_⟩⟩
      rw [if_neg hqueued]
      rfl
  · intro hqueued hnotifiable
    obtain ⟨endpoint, hendpoint, hraised⟩ := notify_raises cfg s₁ clock.now hholds fun h => hnotifiable (hsame.1 h)
    have hnamed : endpoint ∈ row.unencodable := by
      unfold JobRow.unencodable at hendpoint ⊢
      rw [hholds.endpoint, JobRow.endpointOf_cancelledSpec hspec.valid, ← hspec.endpoint] at hendpoint
      exact hendpoint
    refine ⟨endpoint, hnamed, congrArg (returnedOrGet row.id) (transaction_error ?_)⟩
    refine bind_eq_error.2 (.inr ⟨row, hread, ?_⟩)
    rw [if_neg hactive]
    refine bind_eq_error.2 (.inr ⟨s₁, hevent, bind_eq_error.2 (.inr ⟨_, hread', ?_⟩)⟩)
    rw [if_pos hqueued]
    exact bind_eq_error.2 (.inl hraised)

/-- To cancel a job that cannot be read changes nothing. -/
theorem requestCancel_missing (clock : Reading) {jobId : Uuid} {tenantId : Option String} {e : StoreError}
    (h : s.selectJob jobId tenantId = .error e) : requestCancel cfg clock jobId tenantId s = (.error e, s) :=
  congrArg (returnedOrGet jobId) (transaction_error (bind_eq_error.2 (.inl h)))

/-- A job that is terminal, or has the intent already, is returned as it is. -/
theorem requestCancel_settled (cfg : StoreConfig) (clock : Reading) {jobId : Uuid} {tenantId : Option String} {row : JobRow}
    {job : JobRecord} (h : s.selectJob jobId tenantId = .ok row) (hsettled : (row.phase.terminal || row.cancelled) = true)
    (hread : rowToJob row = .ok job) : requestCancel cfg clock jobId tenantId s = (.ok job, s) := by
  have hcommits : ∀ body : Store → Except StoreError (Option JobRecord × Store), body s = .ok (some job, s) →
      transaction cfg body s = (.ok (some job), s) := fun _ hbody => transaction_commits hbody (le_refl _)
  unfold requestCancel
  rw [hcommits]
  · rfl
  · refine bind_eq_ok.2 ⟨row, h, ?_⟩
    rw [if_pos hsettled]
    exact bind_eq_ok.2 ⟨job, hread, rfl⟩

/-- A request to cancel raises for the capacity exactly when what it does to the job does not fit, and the job, if it is announced, can
be. -/
theorem requestCancel_fits (clock : Reading) (jobId : Uuid) (tenantId : Option String) (hs : Sound cfg s) (hx : Exact cfg s) :
    (∀ message, (requestCancel cfg clock jobId tenantId s).1 ≠ .error (.admissionLimited message)) ↔
      ((∀ m ∈ s.cancelMoves clock jobId tenantId, m.announced = true → m.row.Notifiable) →
        Fits cfg (growth cfg (s.cancelMoves clock jobId tenantId) s) s) := by
  have hnone : ∀ m ∈ ([] : List Move), m.row ∈ s.jobs ∧ m.row'.id = m.row.id := fun m hm => by cases hm
  have hquiet : Fits cfg (growth cfg [] s) s := by
    have hmoved : MovedAll cfg [] s s := rfl
    have hg := hmoved.rowBytes hs.wellFormed.jobIds hs.sequenced hnone List.nodup_nil
    exact Or.inr (by omega)
  unfold cancelMoves
  cases hread : s.selectJob jobId tenantId with
  | error e =>
    refine iff_of_true (fun message => ?_) fun _ => hquiet
    rw [requestCancel_missing clock hread]
    rintro ⟨⟩
    unfold selectJob at hread
    split at hread <;> cases hread
  | ok row =>
    dsimp only
    split
    · rename_i hsettled
      obtain ⟨spec, hspec⟩ := hs.readable row (mem_of_selectJob hread).1
      have hreturned := requestCancel_settled cfg clock hread hsettled hspec.rowToJob
      refine iff_of_true (fun message => ?_) fun _ => hquiet
      rw [hreturned]
      rintro ⟨⟩
    · rename_i hactive
      obtain ⟨hreturns, hraises⟩ := requestCancel_active clock hs hread hactive
      have hannounced : (∀ m ∈ [cancelMove clock.now row], m.announced = true → m.row.Notifiable) ↔
          (row.phase = .queued → row.Notifiable) := by
        simp [cancelMove]
      change _ ↔ ((∀ m ∈ [cancelMove clock.now row], m.announced = true → m.row.Notifiable) →
        Fits cfg (growth cfg [cancelMove clock.now row] s) s)
      rw [hannounced]
      by_cases hnotifiable : row.phase = .queued → row.Notifiable
      · obtain ⟨s', hmoved, hexact, -, hcancel⟩ := hreturns hnotifiable
        have hall : MovedAll cfg [cancelMove clock.now row] s s' := ⟨_, hmoved, rfl⟩
        have hg := hall.rowBytes hs.wellFormed.jobIds hs.sequenced (by simp [cancelMove, cancelRequestedRow, (mem_of_selectJob hread).1])
          (List.nodup_singleton _)
        obtain ⟨hcommits, hlimited⟩ := committed_fits (a := (none : Option JobRecord)) hx (hexact hx) hg
        rw [hcancel]
        constructor
        · intro h _
          by_contra hfits
          rw [hlimited hfits] at h
          exact h _ rfl
        · intro hfits message
          rw [hcommits (hfits hnotifiable)]
          exact get_not_limited jobId none s' message
      · push Not at hnotifiable
        obtain ⟨endpoint, -, hraised⟩ := hraises hnotifiable.1 hnotifiable.2
        rw [hraised]
        refine iff_of_true (fun message => ?_) fun h => absurd (h hnotifiable.1) hnotifiable.2
        rintro ⟨⟩

/-- In every store that the operations lead to, whatever the limit of the rows. The recovery after a restart raises nothing for the
capacity, settles every attempt and lets a service start exactly when the rows may grow by what it writes and every attempt can be
announced; so does the recovery of expired leases with its attempts. A request to cancel raises for the capacity exactly when what it does
to the job does not fit, and the job, if it is announced, can be. -/
theorem recovery_capacity (cfg : ServiceConfig) (inputs : List (StoreCall × Reading)) :
    let s := Machine.run (Store.step cfg.store) (create cfg.store 0) inputs
    (∀ clock,
      ((∀ message, (recoverInterrupted cfg.store clock s).1 ≠ .error (.admissionLimited message)) ∧
          (∀ row ∈ s.jobs, row.phase.held = true →
            ∃ r ∈ (recoverInterrupted cfg.store clock s).2.jobs, r.id = row.id ∧ r.phase = lostPhase row.cancelled) ∧
          ∀ service : Service, service.store = s → service.up = true → service.started = false →
            (service.step cfg (.start clock)).started = true) ↔
        (∀ row ∈ s.jobs, row.phase.held = true → row.Notifiable) ∧ Fits cfg.store (interruptedGrowth cfg.store clock s) s) ∧
      (∀ clock excludeJobIds,
        ((∀ message, (recoverExpiredLeases cfg.store clock excludeJobIds s).1 ≠ .error (.admissionLimited message)) ∧
            ∀ row ∈ s.expired clock excludeJobIds,
              ∃ r ∈ (recoverExpiredLeases cfg.store clock excludeJobIds s).2.jobs, r.id = row.id ∧ r.phase = lostPhase row.cancelled) ↔
          (∀ row ∈ s.expired clock excludeJobIds, row.Notifiable) ∧ Fits cfg.store (expiredGrowth cfg.store clock excludeJobIds s) s) ∧
      ∀ clock jobId tenantId,
        (∀ message, (requestCancel cfg.store clock jobId tenantId s).1 ≠ .error (.admissionLimited message)) ↔
          ((∀ m ∈ s.cancelMoves clock jobId tenantId, m.announced = true → m.row.Notifiable) →
            Fits cfg.store (growth cfg.store (s.cancelMoves clock jobId tenantId) s) s) := by
  intro s
  have hreachable : Reachable cfg.store s := ⟨inputs, rfl⟩
  -- an attempt that stays as it is was not settled
  have hstays : ∀ row ∈ s.jobs, row.phase.held = true → ¬∃ r ∈ s.jobs, r.id = row.id ∧ r.phase = lostPhase row.cancelled := by
    rintro row hrow hheld ⟨r, hr, hid, hphase⟩
    obtain rfl := Table.eq_of_key JobRow.id hreachable.wellFormed.jobIds hr hrow hid
    rw [hphase] at hheld
    cases hcancelled : r.cancelled <;> rw [hcancelled] at hheld <;> cases hheld
  refine ⟨fun clock => ?_, fun clock excludeJobIds => ?_, fun clock jobId tenantId =>
    requestCancel_fits clock jobId tenantId hreachable.sound hreachable.exact⟩
  · by_cases hnotifiable : ∀ row ∈ s.jobs, row.phase.held = true → row.Notifiable
    · obtain ⟨hsettles, hraises⟩ := recoverInterrupted_fits clock hreachable.sound hreachable.exact hnotifiable
      constructor
      · rintro ⟨hnot, -⟩
        refine ⟨hnotifiable, ?_⟩
        by_contra hfits
        exact hnot _ (hraises hfits)
      · rintro ⟨-, hfits⟩
        obtain ⟨⟨n, hn⟩, hsettled⟩ := hsettles hfits
        refine ⟨fun message => by rw [hn]; nofun, hsettled, fun service hstore hup hstarted => ?_⟩
        simp only [Service.step, hup, hstarted, hstore, hn]
        rfl
    · obtain ⟨row, hrow, hheld, endpoint, -, hraised⟩ := recoverInterrupted_raises clock hreachable.sound hreachable.exact hnotifiable
      refine iff_of_false (fun h => ?_) fun h => hnotifiable h.1
      have hsettled := h.2.1 row hrow hheld
      rw [hraised] at hsettled
      exact hstays row hrow hheld hsettled
  · by_cases hnotifiable : ∀ row ∈ s.expired clock excludeJobIds, row.Notifiable
    · obtain ⟨hsettles, hraises⟩ := recoverExpiredLeases_fits clock excludeJobIds hreachable.sound hreachable.exact hnotifiable
      constructor
      · rintro ⟨hnot, -⟩
        refine ⟨hnotifiable, ?_⟩
        by_contra hfits
        exact hnot _ (hraises hfits)
      · rintro ⟨-, hfits⟩
        obtain ⟨⟨n, hn⟩, hsettled⟩ := hsettles hfits
        exact ⟨fun message => by rw [hn]; nofun, hsettled⟩
    · obtain ⟨row, hrow, endpoint, -, hraised⟩ :=
        recoverExpiredLeases_raises clock excludeJobIds hreachable.sound hreachable.exact hnotifiable
      refine iff_of_false (fun h => ?_) fun h => hnotifiable h.1
      have hsettled := h.2 row hrow
      rw [hraised] at hsettled
      obtain ⟨hmem, hheld⟩ := (expired_left clock excludeJobIds hreachable.sound).1.rows row (List.mem_filter.1 hrow).1
      exact hstays row hmem hheld hsettled

open Sample in
/-- The sample job is claimed in a store whose rows may weigh 800 bytes: 778 are held by then, and the result of a lost attempt does not
fit. -/
theorem full_store_keeps_attempt :
    ¬∀ (cfg : StoreConfig) (inputs : List (StoreCall × Reading)) (clock : Reading) (message : String),
      (recoverInterrupted cfg clock (Machine.run (Store.step cfg) (create cfg 0) inputs)).1 ≠ .error (.admissionLimited message) := by
  intro h
  refine h { Sample.cfg with maxMetadataBytes := 800 }
    [(.submit "tenant" "key" Sample.spec, clockAt 1), (.claimNext "worker" 30, clockAt 2)] (clockAt 3) "metadata capacity is full" ?_
  decide +kernel

end Store

end SharkRail
