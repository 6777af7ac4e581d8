import SharkRail.Runtime.Broker

/-!
# Replies of a ConPTY broker

A pipe of replies without names gives each request its own answer as long as at most one request is outstanding, and it is the one that
holds the lock (`Awaits`). A request that is abandoned breaks that, and `_control_failed` keeps later ones away; but the flag is read before
the lock is waited for, so a request that waited already comes through (`waiter_takes_abandoned_answer`). In every run in which none does,
every answer is received by the request it was given to (`answers_own`).
-/

namespace SharkRail

namespace Runtime

namespace BrokerHandle

variable {ν : Type} {s : BrokerHandle ν}

/-- A call that received an answer received the one that the broker gave to its own request. -/
def OwnAnswers (s : BrokerHandle ν) : Prop :=
  ∀ id answers result, (id, BrokerOutcome.answered answers result) ∈ s.outcomes →
    answers = id ∧ ∃ message, (id, message) ∈ s.answers ∧ result = message.result

/-- One end of the control pipe is closed. -/
def channelClosed (s : BrokerHandle ν) : Bool := s.controlClosed || s.brokerClosed

/-- A request that waited for the lock takes it on an open channel, after another one was abandoned there. -/
def entersAbandoned (s : BrokerHandle ν) : BrokerInput ν → Bool
  | .resume id => !s.busy && (s.waiter? id).any (!·.cancelled) && s.controlFailed && !s.channelClosed
  | _ => false

/-- The requests that the pipes hold, as themselves or as their answers. -/
def outstanding (s : BrokerHandle ν) : List ℕ := s.replies.map (·.1) ++ s.requests.map (·.id)

/-- Whose answer can come: only that of the request that holds the lock and was sent; where none holds it, no answer comes that anyone
will read. -/
def Awaits (closed failed : Bool) (outstanding : List ℕ) : Option BrokerHolder → Prop
  | none => closed = true ∨ failed = true ∨ outstanding = []
  | some holder =>
    if holder.phase = .sending then closed = true ∨ outstanding = [] else outstanding = [] ∨ outstanding = [holder.request.id]

structure Paired (s : BrokerHandle ν) : Prop where
  exclusive : s.controlLock.Exclusive
  owned : s.controlLock.locked = s.holder.isSome
  exited : s.brokerExited = true → s.brokerClosed = true
  awaits : Awaits s.channelClosed s.controlFailed s.outstanding s.holder
  answered : ∀ reply ∈ s.replies, reply ∈ s.answers
  own : s.OwnAnswers

/-- A new handle has no request outstanding. -/
theorem paired_new (brokered : Bool) : Paired ({ brokered } : BrokerHandle ν) where
  exclusive := AsyncLock.exclusive_new
  owned := rfl
  exited := by simp
  awaits := .inr (.inr rfl)
  answered := by simp
  own := by simp [OwnAnswers]

/-! ## Calls that end -/

/-- An outcome that is no answer to another request. -/
def Due (s : BrokerHandle ν) (request : BrokerRequest) (outcome : BrokerOutcome ν) : Prop :=
  ∀ answers result, outcome = .answered answers result →
    answers = request.id ∧ ∃ message, (request.id, message) ∈ s.answers ∧ result = message.result

/-- A request that ends with what it is due has its own answer. -/
theorem OwnAnswers.ends {request : BrokerRequest} {outcome : BrokerOutcome ν} (h : s.OwnAnswers) (hdue : s.Due request outcome) :
    (s.ends request outcome).OwnAnswers := by
  intro id answers result hmem
  rcases List.mem_append.1 hmem with hmem | hmem
  · exact h id answers result hmem
  · obtain ⟨rfl, hanswered⟩ := Prod.mk.injEq .. ▸ List.mem_singleton.1 hmem
    exact hdue answers result hanswered.symm

/-- A request that ends with what it is due keeps the pairing. -/
theorem Paired.ends {request : BrokerRequest} {outcome : BrokerOutcome ν} (h : Paired s) (hdue : s.Due request outcome) :
    Paired (s.ends request outcome) := { h with awaits := h.awaits, own := h.own.ends hdue }

/-- The lock is left with no answer to come that is read. -/
theorem Paired.leaves {request : BrokerRequest} {outcome : BrokerOutcome ν} (h : Paired s)
    (hclear : s.channelClosed = true ∨ s.controlFailed = true ∨ s.outstanding = []) (hdue : s.Due request outcome) :
    Paired (s.leaves request outcome) where
  exclusive := h.exclusive.release
  owned := AsyncLock.locked_release
  exited := h.exited
  awaits := hclear
  answered := h.answered
  own := h.own.ends hdue

/-- A request that fails as it is due keeps the pairing. -/
theorem Paired.fails {request : BrokerRequest} {outcome : BrokerOutcome ν} (h : Paired s) (hdue : s.Due request outcome) :
    Paired (s.fails request outcome) where
  exclusive := h.exclusive.release
  owned := AsyncLock.locked_release
  exited := h.exited
  awaits := .inr (.inl rfl)
  answered := h.answered
  own := h.own.ends hdue

/-- A closed channel ends the request, and no later one receives on it. -/
theorem Paired.channelError (h : Paired s) (hclosed : s.channelClosed = true) (request : BrokerRequest) :
    Paired (s.channelError request) := by
  unfold BrokerHandle.channelError
  split
  · exact h.leaves (.inl hclosed) (by simp [Due])
  · exact h.fails (by simp [Due])

/-! ## The lock -/

/-- No request holds a lock that is free. -/
theorem Paired.holder_none (h : Paired s) (hfree : s.controlLock.locked = false) : s.holder = none := by
  have := h.owned
  rw [hfree] at this
  simpa using this.symm

/-- Where nobody holds the lock. -/
theorem Paired.idle (h : Paired s) (hholder : s.holder = none) :
    s.channelClosed = true ∨ s.controlFailed = true ∨ s.outstanding = [] := by
  simpa [Awaits, hholder] using h.awaits

/-- What is outstanding is the request of the holder, or nothing. -/
theorem Paired.sent {holder : BrokerHolder} (h : Paired s) (hholder : s.holder = some holder) (hphase : holder.phase ≠ .sending) :
    s.outstanding = [] ∨ s.outstanding = [holder.request.id] := by
  simpa [Awaits, hholder, hphase] using h.awaits

/-- On a channel that closes, no request is sent; what one that was sent can receive is not more than before. -/
theorem Awaits.close {closed failed : Bool} {outstanding outstanding' : List ℕ} {holder : Option BrokerHolder}
    (h : Awaits closed failed outstanding holder)
    (hsent : ∀ id, outstanding = [] ∨ outstanding = [id] → outstanding' = [] ∨ outstanding' = [id]) :
    Awaits true failed outstanding' holder := by
  cases holder with
  | none => exact .inl rfl
  | some holder =>
    simp only [Awaits] at h ⊢
    split
    · exact .inl trivial
    · rename_i hphase
      rw [if_neg hphase] at h
      exact hsent _ h

/-- A cancellation says nothing about what is outstanding. -/
theorem Awaits.cancel {closed failed : Bool} {outstanding : List ℕ} {holder : Option BrokerHolder}
    (h : Awaits closed failed outstanding holder) (p : BrokerHolder → Prop) [DecidablePred p] :
    Awaits closed failed outstanding (holder.map fun holder => if p holder then { holder with cancelled := true } else holder) := by
  cases holder with
  | none => exact h
  | some holder =>
    simp only [Option.map_some]
    split <;> exact h

/-- A new request keeps the pairing. -/
theorem Paired.call (h : Paired s) (operation : BrokerOperation) : Paired (s.call operation) := by
  have hnext : Paired { s with nextId := s.nextId + 1 } := { h with awaits := h.awaits, own := h.own }
  unfold BrokerHandle.call
  dsimp only
  split
  · exact hnext.ends (by simp [Due])
  · split
    · exact hnext.ends (by simp [Due])
    · rename_i hfailed
      refine { hnext with exclusive := h.exclusive.acquire _, owned := ?_, awaits := ?_, own := h.own }
      · rw [AsyncLock.locked_acquire, h.owned]
        split <;> simp_all
      · split
        · rename_i henters
          have hfree := (AsyncLock.enters_iff.1 henters).1
          have hawaits := h.idle (h.holder_none hfree)
          -- the flag was read, and nothing ran since
          simpa [Awaits, outstanding, channelClosed, hfailed] using hawaits
        · exact h.awaits

/-- The waiter of a request is one of the waiters, and was woken. -/
theorem waiter?_spec {id : ℕ} {waiter : LockWaiter BrokerRequest} (h : s.waiter? id = some waiter) :
    waiter ∈ s.controlLock.waiters ∧ waiter.key.id = id ∧ waiter.done = true := by
  have hspec := List.find?_some h
  simp only [Bool.and_eq_true, decide_eq_true_eq] at hspec
  exact ⟨List.mem_of_find?_eq_some h, hspec⟩

/-- A request that waited takes the lock: the channel is closed, so that it can not send, or nothing was abandoned there. -/
theorem Paired.resumeWaiter (h : Paired s) {waiter : LockWaiter BrokerRequest} (hwaiter : waiter ∈ s.controlLock.waiters)
    (hdone : waiter.done = true) (hsound : waiter.cancelled = false → s.controlFailed = true → s.channelClosed = true) :
    Paired (s.resumeWaiter waiter) := by
  unfold BrokerHandle.resumeWaiter
  split
  · rename_i hcancelled
    refine { h with exclusive := h.exclusive.resume hwaiter hdone, owned := ?_, awaits := h.awaits, own := ?_ }
    · rw [AsyncLock.locked_resume, h.owned]
      simp [hcancelled, BrokerHandle.ends]
    · exact h.own.ends (by simp [Due])
  · rename_i hcancelled
    have hcancelled : waiter.cancelled = false := by simpa using hcancelled
    have hwoken : waiter.woken = true := by simpa [LockWaiter.done, hcancelled] using hdone
    have hfree := (h.exclusive.of_woken hwaiter hwoken).1
    have hawaits := h.idle (h.holder_none hfree)
    have hready : s.channelClosed = true ∨ s.outstanding = [] := by
      rcases hawaits with hclosed | hfailed | hnone
      · exact .inl hclosed
      · exact .inl (hsound hcancelled hfailed)
      · exact .inr hnone
    refine { h with exclusive := h.exclusive.resume hwaiter hdone, owned := ?_, awaits := hready, own := h.own }
    rw [AsyncLock.locked_resume]
    simp [hcancelled]

/-- A holder that wakes up keeps the pairing. -/
theorem Paired.resumeHolder (h : Paired s) {holder : BrokerHolder} (hholder : s.holder = some holder)
    (hphase : holder.phase = .sleeping) : Paired (s.resumeHolder holder) := by
  have hsent := h.sent hholder (by simp [hphase])
  unfold BrokerHandle.resumeHolder
  split
  · exact h.fails (by simp [Due])
  · refine { h with owned := ?_, awaits := hsent, own := h.own }
    rw [h.owned, hholder]
    rfl

/-- A loop that is free runs no request, so the one that holds the lock sleeps. -/
theorem sleeping_of_not_busy {holder : BrokerHolder} (h : ¬s.busy = true) (hholder : s.holder = some holder) :
    holder.phase = .sleeping := by
  simpa [busy, hholder] using h

/-- A request that resumes keeps the pairing, unless it enters while an answer is due to a cancelled one. -/
theorem Paired.resume (h : Paired s) {id : ℕ} (hbusy : ¬s.busy = true) (hsound : s.entersAbandoned (.resume id) = false) :
    Paired (s.resume id) := by
  unfold BrokerHandle.resume
  split
  · rename_i waiter hwaiter
    obtain ⟨hmem, _, hdone⟩ := waiter?_spec hwaiter
    refine h.resumeWaiter hmem hdone ?_
    intro hcancelled hfailed
    simpa [entersAbandoned, hbusy, hwaiter, hcancelled, hfailed] using hsound
  · split
    · rename_i hholder _
      exact h.resumeHolder hholder (sleeping_of_not_busy hbusy hholder)
    · exact h
  · exact h

/-- A cancelled request keeps the pairing. -/
theorem Paired.cancel (h : Paired s) (id : ℕ) : Paired (s.cancel id) := by
  refine { h with exclusive := h.exclusive.cancel fun request => request.id = id, owned := ?_, awaits := h.awaits.cancel _, own := h.own }
  simpa [BrokerHandle.cancel, AsyncLock.cancel] using h.owned

/-! ## The pipes -/

/-- A holder that proceeds keeps the pairing. -/
theorem Paired.proceed (h : Paired s) {holder : BrokerHolder} (hholder : s.holder = some holder) : Paired (s.proceed holder) := by
  have howned : s.controlLock.locked = true := by rw [h.owned, hholder]; rfl
  unfold BrokerHandle.proceed
  split
  · rename_i hphase
    split
    · rename_i hclosed
      exact h.channelError hclosed holder.request
    · rename_i hopen
      have hready : s.channelClosed = true ∨ s.outstanding = [] := by simpa [Awaits, hholder, hphase] using h.awaits
      have hnone : s.outstanding = [] := hready.resolve_left hopen
      refine { h with owned := howned, awaits := .inr ?_, own := h.own }
      simp_all [outstanding]
  · rename_i hphase
    have hsent := h.sent hholder (by simp [hphase])
    split
    · rename_i hclosed
      exact h.channelError (by simp [channelClosed, hclosed]) holder.request
    · split
      · rename_i answers message replies hreplies
        -- the one reply that can be there answers this request
        have hown : answers = holder.request.id ∧ replies.map (·.1) ++ s.requests.map (·.id) = [] := by
          rcases hsent with hnone | hone
          · simp [outstanding, hreplies] at hnone
          · simpa [outstanding, hreplies] using hone
        obtain ⟨rfl, hnone⟩ := hown
        have hmem : (holder.request.id, message) ∈ s.answers := h.answered _ (by simp [hreplies])
        have hrest : Paired { s with replies } :=
          { h with
            awaits := by simp only [Awaits, hholder, hphase]; exact .inl hnone
            answered := fun reply hreply => h.answered reply (by simp [hreplies, hreply])
            own := h.own }
        refine hrest.leaves (.inr (.inr hnone)) ?_
        intro answers result heq
        cases heq
        exact ⟨rfl, message, hmem, rfl⟩
      · split
        · rename_i hclosed
          exact h.channelError (by simp [channelClosed, hclosed]) holder.request
        · exact { h with owned := howned, awaits := hsent, own := h.own }
  · rename_i hphase
    have hsent := h.sent hholder (by simp [hphase])
    split
    · exact h.fails (by simp [Due])
    · exact { h with owned := howned, awaits := hsent, own := h.own }
  · exact h

/-- What the broker leaves unanswered is no longer outstanding. -/
theorem Paired.brokerCloses (h : Paired s) : Paired s.brokerCloses := by
  have hclosed : s.brokerCloses.channelClosed = true := by simp [BrokerHandle.brokerCloses, channelClosed]
  refine { h with exited := fun _ => rfl, awaits := ?_, own := h.own }
  rw [hclosed]
  refine h.awaits.close ?_
  intro id hsent
  simp only [outstanding, BrokerHandle.brokerCloses, List.map_nil, List.append_nil] at hsent ⊢
  rcases hsent with hnone | hone
  · exact .inl (List.append_eq_nil_iff.1 hnone).1
  · rcases List.append_eq_singleton_iff.1 hone with ⟨hreplies, _⟩ | ⟨hreplies, _⟩
    · exact .inl hreplies
    · exact .inr hreplies

/-- An answer takes the place of its request. -/
theorem Paired.answers (h : Paired s) {request : BrokerRequest} {requests : List BrokerRequest}
    (hrequests : s.requests = request :: requests)
    (message : BrokerMessage ν) :
    Paired { s with
      requests, replies := s.replies ++ [(request.id, message)], answers := s.answers ++ [(request.id, message)] } := by
  have houtstanding : (s.replies ++ [(request.id, message)]).map (·.1) ++ requests.map (·.id) = s.outstanding := by
    simp [outstanding, hrequests]
  refine { h with awaits := ?_, answered := ?_, own := ?_ }
  · have hawaits := h.awaits
    rwa [← houtstanding] at hawaits
  · intro reply hreply
    rcases List.mem_append.1 hreply with hreply | hreply
    · exact List.mem_append_left _ (h.answered reply hreply)
    · exact List.mem_append_right _ hreply
  · intro id answers result hmem
    obtain ⟨hid, given, hgiven, hresult⟩ := h.own id answers result hmem
    exact ⟨hid, given, List.mem_append_left _ hgiven, hresult⟩

/-- An answer of the broker keeps the pairing. -/
theorem Paired.answer (h : Paired s) (message : BrokerMessage ν) : Paired (s.answer message) := by
  unfold BrokerHandle.answer
  split
  · exact h
  · rename_i request requests hrequests
    have hanswers := h.answers hrequests message
    split
    · exact h.brokerCloses
    · dsimp only
      split
      · exact hanswers.brokerCloses
      · exact hanswers

/-- Disposing of the handle closes the channel. -/
theorem Paired.dispose (h : Paired s) : Paired { s with treeKilled := true, controlClosed := true } :=
  { h with awaits := h.awaits.close fun _ hsent => hsent, own := h.own }

/-- Every input keeps the pairing, unless a request enters while an answer is due to a cancelled one. -/
theorem paired_step (h : Paired s) (i : BrokerInput ν) (hsound : s.entersAbandoned i = false) : Paired (s.step i) := by
  cases i with
  | call operation =>
    simp only [step]
    split
    · exact h
    · exact h.call operation
  | cancel id =>
    simp only [step]
    split
    · exact h
    · exact h.cancel id
  | resume id =>
    simp only [step]
    split
    · exact h
    · rename_i hbusy
      exact h.resume hbusy hsound
  | proceed =>
    simp only [step]
    split
    · rename_i hholder
      exact h.proceed hholder
    · exact h
  | answer message => exact h.answer message
  | brokerCloses => exact h.brokerCloses
  | brokerExits => exact { h.brokerCloses with exited := fun _ => rfl, awaits := h.brokerCloses.awaits, own := h.own }
  | childReturns => exact { h with awaits := h.awaits, own := h.own }
  | killTree =>
    simp only [step]
    split
    · exact h
    · exact { h with awaits := h.awaits, own := h.own }
  | dispose =>
    simp only [step]
    split
    · exact h
    · exact h.dispose

/-- **A request receives the broker's answer to itself.** In every run of calls on one handle, each of them cancelled anywhere, in which no
request that waited for the lock takes it on an open channel where another one was abandoned, an answer that is received was given to the
request that receives it. -/
theorem answers_own (brokered : Bool) (is : List (BrokerInput ν))
    (hsound : Machine.Guarded step (fun s i => s.entersAbandoned i = false) ({ brokered } : BrokerHandle ν) is) :
    (Machine.run step ({ brokered } : BrokerHandle ν) is).OwnAnswers :=
  (Machine.run_induct_of_guarded (P := Paired) (fun _ i h hi => paired_step h i hi) hsound (paired_new brokered)).own

/-- Two requests, one of them cancelled while it waits for the lock, are answered in turn. -/
theorem answers_own_in_turn :
    (Machine.run step ({ brokered := true } : BrokerHandle (Option ℤ))
      [.call (.setwinsize 24 80), .proceed, .proceed, .proceed, .call .sendeof, .call (.write [120]), .cancel 1, .answer (.ok none),
        .resume 0, .proceed, .resume 1, .resume 2, .proceed, .answer (.ok (some 1)), .proceed]).OwnAnswers :=
  answers_own true _ (by decide)

/-- A resize waits for its answer, a write waits for the lock, and the resize is cancelled: the write takes the lock and receives the
answer to the resize. -/
theorem waiter_takes_abandoned_answer :
    ¬(Machine.run step ({ brokered := true } : BrokerHandle (Option ℤ))
      [.call (.setwinsize 24 80), .proceed, .proceed, .proceed, .call (.write [120]), .cancel 0, .resume 0, .resume 1, .proceed,
        .answer (.ok none), .proceed]).OwnAnswers := by
  intro h
  have hmem : (1, BrokerOutcome.answered 0 (.ok (none : Option ℤ))) ∈ [(0, .cancelled), (1, .answered 0 (.ok none))] := by simp
  have hreceived := (h 1 0 (.ok none) hmem).1
  simp at hreceived

end BrokerHandle

end Runtime

end SharkRail
