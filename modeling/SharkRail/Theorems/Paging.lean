import SharkRail.Runtime.Events

/-!
# Event pages

A page starts at the cursor, and the cursor is checked against the oldest event that is retained, so a client that pages from the
beginning reads everything or is told that its cursor expired. The check comes before the sleep of a long poll and the page after
it: a client that sleeps while more events are emitted than are retained is given the later ones without a word
(`long_poll_skips`). In runs where that does not happen the pages are gap-free (`paging_gap_free`).
-/

namespace SharkRail

namespace Runtime

open RingBuffer

variable {α : Type} {limits : EventLimits α} {events : RingBuffer α} {emitted : List α} {cursor : Nat} {request : PageRequest}
  {page : Page α} {s : Paging α}

/-! ## Pages -/

/-- A page is a prefix of the events it is cut from. -/
theorem selectEvents_prefix (limits : EventLimits α) (pageLimit byteLimit : Int) (es : List (Numbered α)) (n : Nat) (b : Int) :
    ∃ k, selectEvents limits pageLimit byteLimit es n b = es.take k := by
  induction es generalizing n b with
  | nil => exact ⟨0, rfl⟩
  | cons e es ih =>
    unfold selectEvents
    dsimp only
    split
    · exact ⟨0, rfl⟩
    · split
      · exact ⟨1, rfl⟩
      · obtain ⟨k, hk⟩ := ih (n + 1) (b + limits.payloadBytes e.value)
        exact ⟨k + 1, by rw [hk, List.take_succ_cons]⟩

/-- A page that has an event to show shows one, however large. -/
theorem selectEvents_ne_nil (pageLimit byteLimit : Int) {es : List (Numbered α)} (hes : es ≠ []) :
    selectEvents limits pageLimit byteLimit es 0 0 ≠ [] := by
  cases es with
  | nil => exact absurd rfl hes
  | cons e es =>
    unfold selectEvents
    dsimp only
    rw [if_neg (fun h => h.1 rfl)]
    split <;> exact List.cons_ne_nil _ _

/-- A page whose cursor the ring still has goes on where the cursor stands. -/
theorem buildPage_from (h : Holds limits.maxRetainedEvents emitted events) (hfirst : events.first ≤ cursor)
    (hcursor : cursor ≤ emitted.length) (hpage : buildPage limits events cursor request = .ok page) :
    (numberedFrom 0 emitted).take cursor ++ page.events = (numberedFrom 0 emitted).take page.nextCursor ∧
      page.nextCursor ≤ emitted.length := by
  unfold buildPage at hpage
  dsimp only at hpage
  split at hpage
  · cases hpage
  · cases hpage
    dsimp only
    obtain ⟨k, hk⟩ := selectEvents_prefix limits (request.limit.getD limits.maxEventPageSize)
      (request.maxBytes.getD limits.maxEventPageBytes) (events.items.filter fun e => cursor ≤ e.seq) 0 0
    rw [hk, items_from h limits.retained hfirst, drop_numberedFrom, Nat.zero_add, take_numberedFrom cursor k,
      getLast?_numberedFrom]
    refine ⟨?_, ?_⟩
    · have hshown : (emitted.drop cursor).take ((emitted.drop cursor).take k).length = (emitted.drop cursor).take k := by
        rw [List.length_take, List.take_eq_take_iff]
        omega
      rw [List.take_add, drop_numberedFrom, Nat.zero_add, take_numberedFrom cursor, hshown]
    · rw [List.length_take, List.length_drop]
      omega

/-- A page that says there is more is not empty, and moves the cursor. -/
theorem buildPage_advances (h : Holds limits.maxRetainedEvents emitted events)
    (hpage : buildPage limits events cursor request = .ok page) (hmore : page.hasMore = true) :
    page.events ≠ [] ∧ cursor < page.nextCursor := by
  unfold buildPage at hpage
  dsimp only at hpage
  split at hpage
  · cases hpage
  · cases hpage
    dsimp only at hmore ⊢
    have hselected : ∀ e ∈ selectEvents limits (request.limit.getD limits.maxEventPageSize)
        (request.maxBytes.getD limits.maxEventPageBytes) (events.items.filter fun e => cursor ≤ e.seq) 0 0, cursor ≤ e.seq := by
      intro e he
      obtain ⟨k, hk⟩ := selectEvents_prefix limits (request.limit.getD limits.maxEventPageSize)
        (request.maxBytes.getD limits.maxEventPageBytes) (events.items.filter fun e => cursor ≤ e.seq) 0 0
      rw [hk] at he
      simpa using (List.mem_filter.1 (List.mem_of_mem_take he)).2
    cases hlast : (selectEvents limits (request.limit.getD limits.maxEventPageSize)
        (request.maxBytes.getD limits.maxEventPageBytes) (events.items.filter fun e => cursor ≤ e.seq) 0 0).getLast? with
    | none =>
      simp only [hlast, Option.map_none, Option.getD_none, decide_eq_true_eq] at hmore
      obtain ⟨e, he, hseq⟩ := h.newest limits.retained (by omega)
      have hshown : events.items.filter (fun e => cursor ≤ e.seq) ≠ [] :=
        List.ne_nil_of_mem (List.mem_filter.2 ⟨he, by simp only [decide_eq_true_eq]; omega⟩)
      exact absurd (List.getLast?_eq_none_iff.1 hlast) (selectEvents_ne_nil _ _ hshown)
    | some e =>
      have hseq := hselected e (List.mem_of_getLast? hlast)
      refine ⟨fun hnil => by simp [hnil] at hlast, ?_⟩
      simp only [Option.map_some, Option.getD_some]
      omega

/-! ## Runs -/

/-- A call that wakes up finds no more events emitted since it fell asleep than are retained. It fell asleep with its cursor at the
next event. -/
def Unskipped (limits : EventLimits α) (s : Paging α) (input : PagingInput α) : Prop :=
  input = .wake → s.waiting.isSome = true → s.events.next - s.cursor ≤ limits.maxRetainedEvents

/-- What the session retains, in every run: the newest events, under consecutive numbers. -/
def Retains (limits : EventLimits α) (s : Paging α) : Prop := Holds limits.maxRetainedEvents s.emitted s.events

/-- What the client has read: everything up to its cursor, once and in order. -/
structure Reads (limits : EventLimits α) (s : Paging α) : Prop where
  retains : Retains limits s
  received : s.received = (numberedFrom 0 s.emitted).take s.cursor
  cursor : s.cursor ≤ s.emitted.length

theorem receive_retains (reply : Except PageError (Page α)) (h : Retains limits s) : Retains limits (s.receive reply) := by
  unfold Paging.receive
  split <;> exact h

theorem Retains.step (h : Retains limits s) (input : PagingInput α) : Retains limits (s.step limits input) := by
  cases input with
  | emit payload => exact push_holds limits.retained h payload
  | request request =>
    unfold Paging.step
    dsimp only
    split
    · exact receive_retains _ h
    · split <;> exact h
  | wake =>
    unfold Paging.step
    dsimp only
    split
    · exact receive_retains (s := { s with waiting := none }) _ h
    · exact h
  | finish | remove => exact h

/-- A page cut where the ring still has the cursor is the next piece of what was emitted. -/
theorem Reads.receive (h : Reads limits s) (hfirst : s.events.first ≤ s.cursor) (request : PageRequest) :
    Reads limits (s.receive (buildPage limits s.events s.cursor request)) := by
  cases hreply : buildPage limits s.events s.cursor request with
  | error e => cases e <;> exact ⟨h.retains, h.received, h.cursor⟩
  | ok page =>
    obtain ⟨hevents, hnext⟩ := buildPage_from h.retains hfirst h.cursor hreply
    refine ⟨h.retains, ?_, hnext⟩
    change s.received ++ page.events = (numberedFrom 0 s.emitted).take page.nextCursor
    rw [h.received]
    exact hevents

theorem Reads.step (h : Reads limits s) {input : PagingInput α} (hg : Unskipped limits s input) :
    Reads limits (s.step limits input) := by
  cases input with
  | emit payload =>
    refine ⟨h.retains.step (.emit payload), ?_, ?_⟩
    · change s.received = (numberedFrom 0 (s.emitted ++ [payload])).take s.cursor
      rw [numberedFrom_append, List.take_append_of_le_length (by simpa using h.cursor)]
      exact h.received
    · change s.cursor ≤ (s.emitted ++ [payload]).length
      rw [List.length_append]
      exact Nat.le_trans h.cursor (Nat.le_add_right _ _)
  | request request =>
    unfold Paging.step Paging.reply
    dsimp only
    by_cases hbusy : (s.waiting.isSome || s.expired) = true
    · rw [if_pos hbusy]
      dsimp only
      rw [if_pos hbusy]
      exact h
    · rw [if_neg hbusy]
      cases hcheck : checkCursor s.events s.present s.ended s.cursor request with
      | error e => cases e <;> exact ⟨h.retains, h.received, h.cursor⟩
      | ok sleeps =>
        cases sleeps with
        | true =>
          dsimp only
          rw [if_neg hbusy]
          exact ⟨h.retains, h.received, h.cursor⟩
        | false =>
          refine h.receive ?_ request
          unfold checkCursor at hcheck
          split at hcheck
          · cases hcheck
          · split at hcheck
            · cases hcheck
            · omega
  | wake =>
    unfold Paging.step Paging.reply
    dsimp only
    cases hwaiting : s.waiting with
    | none => exact h
    | some request =>
      have hwait := hg rfl (by rw [hwaiting]; rfl)
      have hfirst := h.retains.first limits.retained
      have hnext := h.retains.next
      have hcursor := h.cursor
      have hslept : Reads limits { s with waiting := none } := ⟨h.retains, h.received, h.cursor⟩
      exact hslept.receive (by change s.events.first ≤ s.cursor; omega) request
  | finish | remove => exact ⟨h.retains, h.received, h.cursor⟩

/-- In every run a client that begins at cursor 0 has read a gap-free piece of what was emitted, provided no call wakes up to find
more events emitted since it fell asleep than are retained. In every run, without that condition, the session retains the newest
events under consecutive numbers, and a page that says there is more is not empty and moves the cursor. -/
theorem paging_gap_free (limits : EventLimits α) {inputs : List (PagingInput α)}
    (hg : Machine.Guarded (Paging.step limits) (Unskipped limits) {} inputs) :
    ((Machine.run (Paging.step limits) {} inputs).received =
        (numberedFrom 0 (Machine.run (Paging.step limits) {} inputs).emitted).take
          (Machine.run (Paging.step limits) {} inputs).cursor ∧
      (Machine.run (Paging.step limits) {} inputs).received.map (·.seq) =
        List.range' 0 (Machine.run (Paging.step limits) {} inputs).cursor) ∧
      ∀ (inputs : List (PagingInput α)) (s : Paging α), s = Machine.run (Paging.step limits) {} inputs →
        (s.events.items = (numberedFrom 0 s.emitted).drop
            (s.emitted.length - min s.emitted.length limits.maxRetainedEvents) ∧
          s.events.next = s.emitted.length) ∧
        ∀ input page, s.reply limits input = some (.ok page) → page.hasMore = true →
          page.events ≠ [] ∧ s.cursor < page.nextCursor := by
  have hstart : Reads limits ({} : Paging α) := ⟨holds_empty _, rfl, Nat.le_refl 0⟩
  refine ⟨?_, ?_⟩
  · have hreads := Machine.run_induct_of_guarded (fun _ _ h hg => Reads.step h hg) hg hstart
    refine ⟨hreads.received, ?_⟩
    rw [hreads.received, take_numberedFrom, map_seq_numberedFrom, List.length_take, Nat.min_eq_left hreads.cursor]
  · rintro inputs s rfl
    have hretains : Retains limits (Machine.run (Paging.step limits) {} inputs) :=
      Machine.run_induct (P := Retains limits) (fun _ input h => Retains.step h input) (s := ({} : Paging α)) hstart.retains inputs
    refine ⟨⟨hretains.items, hretains.next⟩, fun input page hreply hmore => ?_⟩
    cases input with
    | request request =>
      unfold Paging.reply at hreply
      dsimp only at hreply
      split at hreply
      · cases hreply
      · split at hreply
        · cases hreply
        · cases hreply
        · exact buildPage_advances hretains (Option.some.inj hreply) hmore
    | wake =>
      unfold Paging.reply at hreply
      rw [Option.map_eq_some_iff] at hreply
      obtain ⟨request, -, hpage⟩ := hreply
      exact buildPage_advances hretains hpage hmore
    | emit | finish | remove => cases hreply

/-- A manager that retains one event. -/
def oneEvent : EventLimits Nat :=
  { maxRetainedEvents := 1, maxEventPageSize := 100, maxEventPageBytes := 262144, payloadBytes := id
    retained := by decide, pageSize := by decide }

/-- A client that has read the first event and sleeps. -/
def asleep : List (PagingInput Nat) := [.emit 7, .request {}, .request { waitMs := 1000 }]

theorem paging_gap_free_sample :
    (Machine.run (Paging.step oneEvent) {} (asleep ++ [.emit 8, .wake])).received.map (·.seq) = [0, 1] := by
  have hg : Machine.Guarded (Paging.step oneEvent) (Unskipped oneEvent) {} (asleep ++ [.emit 8, .wake]) := by
    simp only [asleep, List.cons_append, List.nil_append, Machine.Guarded, Unskipped]
    decide
  exact (paging_gap_free oneEvent hg).1.2.trans (by decide)

/-- Two events are emitted while the client sleeps: it is given the second one, and its cursor did not expire. -/
theorem long_poll_skips :
    ¬∀ inputs : List (PagingInput Nat),
      (Machine.run (Paging.step oneEvent) {} inputs).received.map (·.seq) =
          List.range' 0 (Machine.run (Paging.step oneEvent) {} inputs).cursor ∨
        (Machine.run (Paging.step oneEvent) {} inputs).expired = true := by
  intro h
  have hgap := h (asleep ++ [.emit 8, .emit 9, .wake])
  revert hgap
  decide

end Runtime

end SharkRail
