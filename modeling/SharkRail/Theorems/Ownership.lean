import SharkRail.Service.Ownership

/-!
# Orphaned process trees

What the Master hands to the cleanup when a Worker has ended. The messages of the pipe are served in order, and a record is registered
once, before it is unregistered, so the registry holds the records that were accepted and not unregistered, of the messages that were
served (`Serves`). The last time the messages are served, every message is, but where an acknowledgement fails in front of another
message: then an unregistered record can be left in the registry (`unregistered_record_is_cleaned_up`).
-/

namespace SharkRail

namespace Ownership

namespace Generation

variable {registry : Registry} {g : Generation} {queue : List Message} {turns : Nat → Turn}

/-- The message registers what the record is kept of, which passes the checks of capacity and of identity, and on Windows those of its
Job. -/
def Admitted (registry : Registry) (x : Served) (record : OwnershipRecord) : Prop :=
  ∃ payload, x.message.operation = .register payload ∧ x.held < registry.maxRecords ∧
    registeredProcessIsCurrent registry.platform x.host payload = true ∧ keptRecord registry.platform x.host payload = some record

/-- As far as messages were served, the record was admitted and not unregistered. -/
def Registered (registry : Registry) (served : List Served) (record : OwnershipRecord) : Prop :=
  (∃ x ∈ served, Admitted registry x record) ∧ ∀ x ∈ served, x.message.operation ≠ .unregister record.ownershipId

/-- A record is registered after one more message where it was or that one admits it, and none unregisters it. -/
theorem registered_append (served : List Served) (x : Served) (record : OwnershipRecord) :
    Registered registry (served ++ [x]) record ↔
      ((∃ y ∈ served, Admitted registry y record) ∨ Admitted registry x record) ∧
        (∀ y ∈ served, y.message.operation ≠ .unregister record.ownershipId) ∧
          x.message.operation ≠ .unregister record.ownershipId := by
  simp only [Registered, List.mem_append, List.mem_singleton, or_imp, forall_and, forall_eq, or_and_right, exists_or,
    exists_eq_left]

/-- The messages of the pipe are the served ones and then the queued ones; no record is registered after a message that is about it;
the registry is what the served messages made it. -/
structure Serves (registry : Registry) (g : Generation) (queue : List Message) : Prop where
  written : g.written = g.served.map (·.message) ++ queue
  order : g.written.Pairwise fun m m' =>
    ∀ record, m'.operation = .register record → m.operation.ownershipId ≠ record.ownershipId
  owned : ∀ record, record ∈ g.owned ↔ Registered registry g.served record

/-! ## Serving messages -/

/-- What is registered is not about a record that no message was about. -/
theorem Serves.unknown {message : Message} (h : Serves registry g (message :: queue)) {record : OwnershipRecord}
    (hregister : message.operation = .register record) :
    ∀ x ∈ g.served, x.message.operation.ownershipId ≠ record.ownershipId := by
  intro x hx
  have horder := h.order
  rw [h.written, List.pairwise_append] at horder
  exact horder.2.2 x.message (List.mem_map_of_mem hx) message (List.mem_cons_self ..) record hregister

/-- What is kept of a registration has its identifier. -/
theorem ownershipId_of_keptRecord {platform : Platform} {host : Host} {payload record : OwnershipRecord}
    (h : keptRecord platform host payload = some record) : record.ownershipId = payload.ownershipId := by
  unfold keptRecord at h
  split at h
  · cases h
    rfl
  · split at h
    · cases h
    · split at h
      · cases h
      · split at h
        · cases h
        · cases h
          rfl

/-- A registration that is served is of a record that the registry does not hold. -/
theorem Serves.notOwned {message : Message} (h : Serves registry g (message :: queue)) {record : OwnershipRecord}
    (hregister : message.operation = .register record) :
    g.owned.any (·.ownershipId = record.ownershipId) = false := by
  rw [List.any_eq_false]
  intro r hr heq
  obtain ⟨⟨x, hx, payload, hop, -, -, hkept⟩, -⟩ := (h.owned r).1 hr
  have hunknown := h.unknown hregister x hx
  rw [hop] at hunknown
  exact hunknown ((ownershipId_of_keptRecord hkept).symm.trans (of_decide_eq_true heq))

/-- A registration is served: the record is admitted, or the registry stays as it is. -/
theorem Serves.serve_register {message : Message} (h : Serves registry g (message :: queue)) (host : Host)
    {record : OwnershipRecord} (hop : message.operation = .register record) {accepted : Bool} {owned : List OwnershipRecord}
    (hserve : serveOperation registry host g.owned message.operation = (accepted, owned)) (r : OwnershipRecord) :
    r ∈ owned ↔ Registered registry (g.served ++ [{ message, host, held := g.owned.length, accepted }]) r := by
  rw [hop, serveOperation, h.notOwned hop, if_neg Bool.false_ne_true] at hserve
  have hkept : (∀ y ∈ g.served, y.message.operation ≠ .unregister record.ownershipId) := by
    intro y hy hunregister
    have hunknown := h.unknown hop y hy
    rw [hunregister] at hunknown
    exact hunknown rfl
  have hregister : message.operation ≠ .unregister r.ownershipId := by rw [hop]; nofun
  rw [registered_append, Admitted]
  dsimp only
  have howned := h.owned r
  rw [Registered] at howned
  have hmem : r ∈ owned ↔ r ∈ g.owned ∨
      (g.owned.length < registry.maxRecords ∧ registeredProcessIsCurrent registry.platform host record = true ∧
        keptRecord registry.platform host record = some r) := by
    split at hserve
    · rename_i hfull
      cases hserve
      refine ⟨Or.inl, ?_⟩
      rintro (hr | ⟨hroom, -⟩)
      · exact hr
      · exact absurd hroom (by omega)
    · rename_i hroom
      split at hserve
      · rename_i hcurrent
        cases hserve
        refine ⟨Or.inl, ?_⟩
        rintro (hr | ⟨-, hyes, -⟩)
        · exact hr
        · rw [hyes] at hcurrent
          cases hcurrent
      · rename_i hcurrent
        split at hserve
        · rename_i hrefused
          cases hserve
          simp [hrefused]
        · rename_i kept hkept
          cases hserve
          rw [Table.mem_insert, hkept, Option.some.injEq, eq_comm (a := r)]
          refine or_congr_right ⟨fun hr => ⟨by omega, by simpa using hcurrent, hr⟩, fun hr => hr.2.2⟩
  rw [hmem, howned]
  constructor
  · rintro (⟨hadmitted, hstays⟩ | hadmitted)
    · exact ⟨Or.inl hadmitted, hstays, hregister⟩
    · refine ⟨Or.inr ⟨record, hop, hadmitted⟩, ?_, hregister⟩
      rw [ownershipId_of_keptRecord hadmitted.2.2]
      exact hkept
  · rintro ⟨hadmitted | ⟨payload, hpayload, hadmitted⟩, hstays, -⟩
    · exact Or.inl ⟨hadmitted, hstays⟩
    · obtain rfl : record = payload := by simpa using hop.symm.trans hpayload
      exact Or.inr hadmitted

/-- A record is unregistered. -/
theorem Serves.serve_unregister {message : Message} (h : Serves registry g (message :: queue)) (host : Host)
    {ownershipId : Nat} (hop : message.operation = .unregister ownershipId) {accepted : Bool} {owned : List OwnershipRecord}
    (hserve : serveOperation registry host g.owned message.operation = (accepted, owned)) (r : OwnershipRecord) :
    r ∈ owned ↔ Registered registry (g.served ++ [{ message, host, held := g.owned.length, accepted }]) r := by
  rw [hop, serveOperation] at hserve
  cases hserve
  rw [registered_append, Table.mem_delete, h.owned, Registered, Admitted]
  dsimp only
  rw [hop, ne_eq, Operation.unregister.injEq, decide_eq_false_iff_not, eq_comm (a := ownershipId)]
  constructor
  · rintro ⟨⟨hadmitted, hstays⟩, hother⟩
    exact ⟨Or.inl hadmitted, hstays, hother⟩
  · rintro ⟨hadmitted | ⟨payload, hregister, -⟩, hstays, hother⟩
    · exact ⟨⟨hadmitted, hstays⟩, hother⟩
    · cases hregister

/-- One message is served. -/
theorem Serves.serve {message : Message} (h : Serves registry g (message :: queue)) (host : Host) {accepted : Bool}
    {owned : List OwnershipRecord} (hserve : serveOperation registry host g.owned message.operation = (accepted, owned)) :
    Serves registry
      { g with owned, served := g.served ++ [{ message, host, held := g.owned.length, accepted }] } queue := by
  refine ⟨?_, h.order, fun r => ?_⟩
  · change g.written = _
    rw [h.written, List.map_append, List.append_assoc]
    rfl
  · cases hop : message.operation with
    | register record => exact h.serve_register host hop hserve r
    | unregister ownershipId => exact h.serve_unregister host hop hserve r

/-- The queued messages are served, up to the first acknowledgement that is not taken. -/
theorem Serves.service (h : Serves registry g queue) (turns : Nat → Turn) :
    Serves registry (g.serviceOwnershipMessages registry queue turns)
      (g.serviceOwnershipMessages registry queue turns).queue := by
  induction queue generalizing g turns with
  | nil => exact ⟨h.written, h.order, h.owned⟩
  | cons message queue ih =>
    unfold serviceOwnershipMessages
    cases hserve : serveOperation registry (turns 0).host g.owned message.operation with
    | mk accepted owned =>
      have hserved := h.serve (turns 0).host hserve
      dsimp only
      split
      · refine ih ?_ _
        exact ⟨hserved.written, hserved.order, hserved.owned⟩
      · exact ⟨hserved.written, hserved.order, hserved.owned⟩

/-- Serving messages changes the queue, the acknowledgements and the registry. -/
theorem serviceOwnershipMessages_eq (g : Generation) (queue : List Message) (turns : Nat → Turn) :
    ∃ queue' acks owned served,
      g.serviceOwnershipMessages registry queue turns = { g with queue := queue', acks, owned, served } := by
  induction queue generalizing g turns with
  | nil => exact ⟨_, _, _, _, rfl⟩
  | cons message queue ih =>
    unfold serviceOwnershipMessages
    dsimp only
    split
    · obtain ⟨queue', acks, owned, served, heq⟩ := ih _ _
      exact ⟨queue', acks, owned, served, heq⟩
    · exact ⟨_, _, _, _, rfl⟩

/-- Every message is served when no acknowledgement fails in front of another message. -/
theorem serviceOwnershipMessages_queue (g : Generation) {queue : List Message} {turns : Nat → Turn}
    (hdelivered : ∀ k, k + 1 < queue.length → (turns k).delivered = true) :
    (g.serviceOwnershipMessages registry queue turns).queue = [] := by
  induction queue generalizing g turns with
  | nil => rfl
  | cons message queue ih =>
    unfold serviceOwnershipMessages
    dsimp only
    split
    · refine ih _ fun k hk => hdelivered (k + 1) ?_
      rw [List.length_cons]
      omega
    · rename_i hfailed
      cases queue with
      | nil => rfl
      | cons next rest => exact absurd (hdelivered 0 (by simp)) hfailed

/-! ## Runs -/

/-- Identifiers are fresh, and the Worker has ended when its records are handed to the cleanup. -/
structure Sound (registry : Registry) (g : Generation) : Prop where
  serves : g.orphans = none → Serves registry g g.queue
  fresh : ∀ m ∈ g.written, m.operation.ownershipId < g.nextOwnershipId
  handles : ∀ handle ∈ g.handles, ∀ ownershipId ∈ handle.ownershipId, ownershipId < g.nextOwnershipId
  ended : g.orphans.isSome = true → g.alive = false
  settled : ∀ orphans ∈ g.orphans,
    g.written = g.served.map (·.message) ∧ ∀ record, record ∈ orphans ↔ Registered registry g.served record

/-- In the last service, no acknowledgement fails in front of another message. -/
def Drains (g : Generation) : OwnershipInput → Prop
  | .finish turns => ∀ k, k + 1 < g.queue.length → (turns k).delivered = true
  | _ => True

/-- A generation that is alive has no orphans yet. -/
theorem Sound.unfinished (h : Sound registry g) (halive : g.alive = true) : g.orphans = none := by
  cases horphans : g.orphans with
  | none => rfl
  | some orphans =>
    have hended := h.ended (by rw [horphans]; rfl)
    rw [halive] at hended
    cases hended

/-- A message is written that registers no record that a message was about. -/
theorem Sound.request (h : Sound registry g) (halive : g.alive = true) (i : Nat) (operation : Operation) (sent : Bool)
    (hfresh : operation.ownershipId < g.nextOwnershipId)
    (hnew : ∀ record, operation = .register record → ∀ m ∈ g.written, m.operation.ownershipId ≠ record.ownershipId) :
    Sound registry (g.request i operation sent) := by
  have hunfinished := h.unfinished halive
  have hserves := h.serves hunfinished
  unfold Generation.request
  split
  · exact ⟨fun _ => ⟨hserves.written, hserves.order, hserves.owned⟩, h.fresh, h.handles, h.ended, h.settled⟩
  · refine ⟨fun _ => ⟨?_, ?_, hserves.owned⟩, fun m hm => ?_, h.handles, h.ended, fun orphans ho => ?_⟩
    · dsimp only
      rw [hserves.written, List.append_assoc]
    · refine List.pairwise_append.2 ⟨hserves.order, List.pairwise_singleton .., fun m hm m' hm' record hregister => ?_⟩
      cases List.mem_singleton.1 hm'
      exact hnew record hregister m hm
    · rcases List.mem_append.1 hm with hm | hm
      · exact h.fresh m hm
      · cases List.mem_singleton.1 hm
        exact hfresh
    · rw [Option.mem_def, hunfinished] at ho
      cases ho

/-- A handle is replaced by one with an identifier that was given out. -/
theorem Sound.setHandle (h : Sound registry g) (i : Nat) (handle : ProcessHandle)
    (hhandle : ∀ ownershipId ∈ handle.ownershipId, ownershipId < g.nextOwnershipId) : Sound registry (g.setHandle i handle) := by
  refine ⟨fun ho => ?_, h.fresh, fun handle' hmem => ?_, h.ended, h.settled⟩
  · have hserves := h.serves ho
    exact ⟨hserves.written, hserves.order, hserves.owned⟩
  · rcases List.mem_or_eq_of_mem_set hmem with hmem | rfl
    · exact h.handles handle' hmem
    · exact hhandle

/-- A handle that is registered keeps the generation sound. -/
theorem Sound.register (h : Sound registry g) (halive : g.alive = true) (i : Nat) (handle : ProcessHandle) (sent : Bool) :
    Sound registry (g.register registry i handle sent) := by
  unfold Generation.register
  split
  · split
    · exact h
    · have hnext : Sound registry { g with nextOwnershipId := g.nextOwnershipId + 1 } := by
        refine ⟨fun ho => ?_, fun m hm => ?_, fun handle hmem ownershipId hid => ?_, h.ended, h.settled⟩
        · have hserves := h.serves ho
          exact ⟨hserves.written, hserves.order, hserves.owned⟩
        · exact Nat.lt_succ_of_lt (h.fresh m hm)
        · exact Nat.lt_succ_of_lt (h.handles handle hmem ownershipId hid)
      have hset := hnext.setHandle i { handle with ownershipId := some g.nextOwnershipId } (by
        rintro ownershipId ⟨⟩
        exact Nat.lt_succ_self _)
      refine Sound.request hset halive i _ sent (Nat.lt_succ_self _) ?_
      rintro record ⟨⟩ m hm heq
      have hlt := h.fresh m hm
      dsimp only at heq
      omega
  · exact h

/-- A handle that is unregistered keeps the generation sound. -/
theorem Sound.unregister (h : Sound registry g) (halive : g.alive = true) {i : Nat} {handle : ProcessHandle}
    (hhandle : handle ∈ g.handles) (sent : Bool) : Sound registry (g.unregister i handle sent) := by
  unfold Generation.unregister
  split
  · exact h
  · rename_i ownershipId hid
    exact h.request halive i _ sent (h.handles handle hhandle ownershipId hid) nofun

/-- A message that is received keeps the generation sound. -/
theorem Sound.receive (h : Sound registry g) : Sound registry g.receive := by
  unfold Generation.receive
  have hsame : ∀ acks requested, Sound registry { g with acks, requested } := fun acks requested =>
    ⟨fun ho => ⟨(h.serves ho).written, (h.serves ho).order, (h.serves ho).owned⟩, h.fresh, h.handles, h.ended, h.settled⟩
  split
  · split
    · exact hsame _ _
    · dsimp only
      split
      · split
        · exact (hsame _ _).setHandle _ _ nofun
        · exact hsame _ _
      · exact hsame _ _
  · exact h

/-- The messages that are serviced keep the generation sound. -/
theorem Sound.service (h : Sound registry g) (horphans : g.orphans = none) (turns : Nat → Turn) :
    Sound registry (g.serviceOwnershipMessages registry g.queue turns) := by
  have hserved := (h.serves horphans).service turns
  obtain ⟨queue, acks, owned, served, heq⟩ := serviceOwnershipMessages_eq g g.queue turns
  rw [heq] at hserved ⊢
  refine ⟨fun _ => hserved, h.fresh, h.handles, h.ended, fun orphans ho => ?_⟩
  rw [Option.mem_def] at ho
  cases horphans.symm.trans ho

/-- The end of a generation keeps it sound, where the pipe is drained. -/
theorem Sound.finish (h : Sound registry g) (halive : g.alive = false) (horphans : g.orphans = none) {turns : Nat → Turn}
    (hdrains : Drains g (.finish turns)) : Sound registry (g.finishOwnershipGeneration registry turns) := by
  have hserved := (h.serves horphans).service turns
  rw [serviceOwnershipMessages_queue g hdrains] at hserved
  unfold finishOwnershipGeneration
  obtain ⟨queue, acks, owned, served, heq⟩ := serviceOwnershipMessages_eq g g.queue turns
  rw [heq] at hserved ⊢
  refine ⟨nofun, h.fresh, h.handles, fun _ => halive, ?_⟩
  rintro orphans ⟨⟩
  exact ⟨by simpa using hserved.written, hserved.owned⟩

/-- Every input keeps the generation sound, where the pipe is drained at the end. -/
theorem Sound.step (h : Sound registry g) {input : OwnershipInput} (hdrains : Drains g input) :
    Sound registry (g.step registry input) := by
  have hsame : ∀ requested closed, Sound registry { g with requested, closed } := fun requested closed =>
    ⟨fun ho => ⟨(h.serves ho).written, (h.serves ho).order, (h.serves ho).owned⟩, h.fresh, h.handles, h.ended, h.settled⟩
  cases input with
  | spawn pid processTree birthIdentity job =>
    unfold Generation.step
    dsimp only
    split
    · refine ⟨fun ho => ⟨(h.serves ho).written, (h.serves ho).order, (h.serves ho).owned⟩, h.fresh, ?_, h.ended, h.settled⟩
      intro handle hmem
      rcases List.mem_append.1 hmem with hmem | hmem
      · exact h.handles handle hmem
      · cases List.mem_singleton.1 hmem
        nofun
    · exact h
  | register i sent =>
    unfold Generation.step
    dsimp only
    split
    · split
      · rename_i hclient
        exact h.register hclient.1 i _ sent
      · exact h
    · exact h
  | unregister i sent =>
    unfold Generation.step
    dsimp only
    split
    · rename_i hhandle
      split
      · rename_i hclient
        exact h.unregister hclient.1 (List.mem_of_getElem? hhandle) sent
      · exact h
    · exact h
  | receive =>
    unfold Generation.step
    dsimp only
    split
    · exact h.receive
    · exact h
  | timeout =>
    unfold Generation.step
    dsimp only
    split
    · exact hsame _ _
    · exact h
  | close =>
    unfold Generation.step
    dsimp only
    split
    · exact hsame _ _
    · exact h
  | die =>
    exact ⟨fun ho => ⟨(h.serves ho).written, (h.serves ho).order, (h.serves ho).owned⟩, h.fresh, h.handles, fun _ => rfl, h.settled⟩
  | service turns =>
    unfold Generation.step
    dsimp only
    split
    · rename_i horphans
      exact h.service horphans turns
    · exact h
  | finish turns =>
    unfold Generation.step
    dsimp only
    split
    · rename_i hended
      exact h.finish (by simpa using hended.1) hended.2 hdrains
    · exact h

/-- When no acknowledgement of the last service fails in front of another message, every message was served, and what is handed to
the cleanup are the records that passed the checks when their registration was served and whose unregistration was not written. -/
theorem orphans_of_drains (registry : Registry) {inputs : List OwnershipInput}
    (hdrains : Machine.Guarded (Generation.step registry) Drains {} inputs) {orphans : List OwnershipRecord}
    (horphans : (Machine.run (Generation.step registry) {} inputs).orphans = some orphans) :
    (Machine.run (Generation.step registry) {} inputs).written =
        (Machine.run (Generation.step registry) {} inputs).served.map (·.message) ∧
      ∀ record, record ∈ orphans ↔
        (∃ x ∈ (Machine.run (Generation.step registry) {} inputs).served, Admitted registry x record) ∧
          ∀ m ∈ (Machine.run (Generation.step registry) {} inputs).written,
            m.operation ≠ .unregister record.ownershipId := by
  have hstart : Sound registry ({} : Generation) :=
    ⟨fun _ => ⟨rfl, List.Pairwise.nil, fun record => by simp [Registered]⟩, nofun, nofun, nofun, nofun⟩
  have hrun := Machine.run_induct_of_guarded (P := Sound registry) (fun _ _ h hg => h.step hg) hdrains hstart
  obtain ⟨hwritten, hregistered⟩ := hrun.settled orphans horphans
  refine ⟨hwritten, fun record => ?_⟩
  rw [hregistered, hwritten, Registered, List.forall_mem_map]

namespace Sample

/-- A Master on a POSIX host that keeps four records. -/
def master : Registry := { maxRecords := 4 }

/-- A host on which every process was born as `"boot"` and leads its group. -/
def host : Host := { processBirthIdentity := fun _ => some "boot", getpgid := some }

def record (ownershipId : Nat) (pid : Int) : OwnershipRecord :=
  { ownershipId, pid, pgid := some pid, processTree := .processGroup, birthIdentity := "boot" }

/-- Two processes are registered and the first one is unregistered, which the Master serves after the Worker has died; it can
acknowledge the first two messages. -/
def drained : List OwnershipInput :=
  [.spawn 41 .processGroup (some "boot") none, .spawn 42 .processGroup (some "boot") none, .register 0 true, .timeout, .register 1 true,
    .timeout, .unregister 0 true, .die, .finish fun k => { host, delivered := k < 2 }]

/-- A process is registered and unregistered, which the Master serves after the Worker has died; it can acknowledge nothing. -/
def interrupted : List OwnershipInput :=
  [.spawn 41 .processGroup (some "boot") none, .register 0 true, .timeout, .unregister 0 true, .die,
    .finish fun _ => { host, delivered := false }]

end Sample

/-- Of two registered handles the one that was not unregistered is the orphan. -/
theorem orphans_of_drains_sample :
    (Machine.run (Generation.step Sample.master) {} Sample.drained).orphans = some [Sample.record 1 42] ∧
      (Machine.run (Generation.step Sample.master) {} Sample.drained).written =
        (Machine.run (Generation.step Sample.master) {} Sample.drained).served.map (·.message) := by
  have horphans : (Machine.run (Generation.step Sample.master) {} Sample.drained).orphans = some [Sample.record 1 42] := by decide
  have hdrains : Machine.Guarded (Generation.step Sample.master) Drains {} Sample.drained := by
    refine ⟨trivial, trivial, trivial, trivial, trivial, trivial, trivial, trivial, fun k hk => ?_, trivial⟩
    change k + 1 < 3 at hk
    exact decide_eq_true (by omega)
  exact ⟨horphans, (orphans_of_drains Sample.master hdrains horphans).1⟩

/-- The last service stops at the acknowledgement it can not give, with the unregistration still queued: the record is handed to the
cleanup. -/
theorem unregistered_record_is_cleaned_up :
    ¬∀ (inputs : List OwnershipInput) (orphans : List OwnershipRecord),
      (Machine.run (Generation.step Sample.master) {} inputs).orphans = some orphans → ∀ record ∈ orphans,
        ∀ m ∈ (Machine.run (Generation.step Sample.master) {} inputs).written, m.operation ≠ .unregister record.ownershipId := by
  intro h
  have hcleaned := h Sample.interrupted [Sample.record 0 41] (by decide) _ (List.mem_singleton_self _)
  revert hcleaned
  decide

end Generation

end Ownership

end SharkRail
