import SharkRail.Integrations.Acp

/-!
# The text of an ACP terminal

What `_decode_tail` skips is exactly the invalid bytes at the start of what was kept, where they are at most three, and else nothing
(`decodeTail_eq`). The tail of an encoded text that was kept starts with what is left of one character, at most three bytes that begin no
character, so the terminal shows the longest suffix of the text that fits (`tail_output`). Output that was not truncated and starts with
one to three invalid bytes loses them too (`untruncated_output`).
-/

namespace SharkRail

namespace Integrations

open SharkRail.Runtime (OutputInput OutputPolicy OutputStream SessionOutput)

open PyStr (encode)

open Utf8 (StartsInvalid invalidPrefix items)

variable {value : Bytes} {left offset : ℕ}

/-! ## What is skipped -/

theorem decodeStrict_of_items (h : (items value).any Utf8.Item.isInvalid = true) : Utf8.decodeStrict value = none := if_pos h

/-- An offset where the text starts with an error is skipped. -/
theorem decodeTailFrom_invalid (h : StartsInvalid (value.drop offset)) :
    decodeTailFrom value (left + 1) offset = decodeTailFrom value left (offset + 1) := by
  have hstart := Utf8.errorStart_eq_zero.2 h
  obtain ⟨bytes, rest, hitems⟩ := h
  have hinvalid : (items (value.drop offset)).any Utf8.Item.isInvalid = true := by
    rw [hitems]
    rfl
  rw [decodeTailFrom, decodeStrict_of_items hinvalid]
  dsimp only
  rw [if_neg (not_not_intro hstart)]

/-- At another offset the rest is decoded. -/
theorem decodeTailFrom_decodes (h : ¬StartsInvalid (value.drop offset)) :
    decodeTailFrom value (left + 1) offset = Utf8.decode .replace (value.drop offset) := by
  rw [decodeTailFrom]
  split
  · rename_i text htext
    unfold Utf8.decodeStrict at htext
    split at htext <;> cases htext
    rfl
  · rw [if_pos fun hstart => h (Utf8.errorStart_eq_zero.1 hstart)]

/-- Offsets where the text starts with an error are skipped, one after the other. -/
theorem decodeTailFrom_skips {skipped : ℕ} (h : ∀ i < skipped, StartsInvalid (value.drop (offset + i))) :
    decodeTailFrom value (left + skipped) offset = decodeTailFrom value left (offset + skipped) := by
  induction skipped generalizing offset with
  | zero => rfl
  | succ skipped ih =>
    have hrest : ∀ i < skipped, StartsInvalid (value.drop (offset + 1 + i)) := by
      intro i hi
      rw [Nat.add_assoc, Nat.add_comm 1 i]
      exact h (i + 1) (Nat.succ_lt_succ hi)
    have hfirst : StartsInvalid (value.drop offset) := h 0 (Nat.succ_pos _)
    rw [← Nat.add_assoc, decodeTailFrom_invalid hfirst, ih hrest, Nat.add_assoc, Nat.add_comm 1]

/-- After the invalid start the text does not start with an error. -/
theorem not_startsInvalid_drop (value : Bytes) : ¬StartsInvalid (value.drop (invalidPrefix value)) := by
  rintro ⟨bytes, rest, hitems⟩
  rw [(Utf8.invalid_drop value).2.1] at hitems
  have hfirst := List.head?_dropWhile_not Utf8.Item.isInvalid (items value)
  rw [hitems] at hfirst
  cases hfirst

/-- What `_decode_tail` returns: up to three invalid bytes at the start are left out. -/
theorem decodeTail_eq (value : Bytes) :
    decodeTail value = Utf8.decode .replace (if invalidPrefix value ≤ 3 then value.drop (invalidPrefix value) else value) := by
  obtain ⟨hstarts, -, hle⟩ := Utf8.invalid_drop value
  unfold decodeTail
  split
  · rename_i hfew
    obtain ⟨more, hmore⟩ : ∃ more, min 4 (value.length + 1) = more + 1 + invalidPrefix value :=
      ⟨min 4 (value.length + 1) - 1 - invalidPrefix value, by omega⟩
    have hskips : ∀ i < invalidPrefix value, StartsInvalid (value.drop (0 + i)) := by
      intro i hi
      rw [Nat.zero_add]
      exact hstarts i hi
    rw [hmore, decodeTailFrom_skips hskips, Nat.zero_add]
    exact decodeTailFrom_decodes (not_startsInvalid_drop value)
  · rename_i hmany
    have hfour : min 4 (value.length + 1) = 0 + 4 := by omega
    have hskips : ∀ i < 4, StartsInvalid (value.drop (0 + i)) := by
      intro i hi
      rw [Nat.zero_add]
      exact hstarts i (by omega)
    rw [hfour, decodeTailFrom_skips hskips]
    rfl

/-! ## What is kept -/

/-- The last bytes of what was received, and no standard error. -/
structure KeepsTail (limit : ℕ) (s : SessionOutput) : Prop where
  stdout : s.stdout = s.received.1.drop (s.received.1.length - limit)
  stderr : s.stderr = []

theorem KeepsTail.congr {limit : ℕ} {s s' : SessionOutput} (h : KeepsTail limit s) (hstdout : s'.stdout = s.stdout)
    (hstderr : s'.stderr = s.stderr) (hreceived : s'.received = s.received) : KeepsTail limit s' := by
  refine ⟨?_, hstderr.trans h.stderr⟩
  rw [hstdout, hreceived]
  exact h.stdout

/-- The tail of a tail and a piece is the tail of the whole. -/
theorem drop_append_tail (limit : ℕ) (received data : Bytes) :
    (received.drop (received.length - limit) ++ data).drop ((received.drop (received.length - limit) ++ data).length - limit) =
      (received ++ data).drop ((received ++ data).length - limit) := by
  have hle : received.length - limit ≤ received.length := Nat.sub_le _ _
  rw [← List.drop_append_of_le_length hle, List.drop_drop, List.length_drop]
  congr 1
  rw [List.length_append]
  omega

variable {limit maxOutputEvents : ℕ} {s : SessionOutput}

theorem KeepsTail.countDropped {stream : OutputStream} {dropped : ℕ} (h : KeepsTail limit s) :
    KeepsTail limit (s.countDropped stream dropped) := by
  unfold SessionOutput.countDropped SessionOutput.setReader
  split
  · exact h.congr rfl rfl rfl
  · dsimp only
    split <;> exact h.congr rfl rfl rfl

/-- A chunk of the PTY is kept with what was kept, and the tail of both stays. -/
theorem KeepsTail.retain (h : KeepsTail limit s) (data : Bytes) (totalOutputBytes : ℕ) :
    KeepsTail limit
      (SessionOutput.retain (terminalPolicy limit maxOutputEvents) .pty data { s.receive .pty data with totalOutputBytes }).1 := by
  refine ⟨?_, h.stderr⟩
  change (s.stdout ++ data).drop ((s.stdout ++ data).length + s.stderr.length - limit) =
    (s.received.1 ++ data).drop ((s.received.1 ++ data).length - limit)
  rw [h.stderr, h.stdout, List.length_nil, Nat.add_zero]
  exact drop_append_tail limit s.received.1 data

theorem KeepsTail.appendOutput (h : KeepsTail limit s) (data : Bytes) :
    KeepsTail limit ((s.receive .pty data).appendOutput (terminalPolicy limit maxOutputEvents) .pty data) := by
  have hretain := @KeepsTail.retain limit maxOutputEvents _ h data ((s.receive .pty data).totalOutputBytes + data.length)
  unfold SessionOutput.appendOutput
  generalize SessionOutput.retain (terminalPolicy limit maxOutputEvents) .pty data
    { s.receive .pty data with totalOutputBytes := (s.receive .pty data).totalOutputBytes + data.length } = retained at hretain
  obtain ⟨s', shown, dropped⟩ := retained
  dsimp only at hretain ⊢
  split
  · exact hretain.congr rfl rfl rfl
  · split
    · exact hretain.congr rfl rfl rfl
    · exact hretain.countDropped

/-- A step of a terminal's session keeps the tail. -/
theorem KeepsTail.step (h : KeepsTail limit s) (input : OutputInput) :
    KeepsTail limit (s.step (terminalPolicy limit maxOutputEvents) input) := by
  cases input with
  | chunk stream data =>
    simp only [SessionOutput.step]
    split
    · rename_i hreader
      rw [Bool.and_eq_true] at hreader
      have hpty : stream = .pty := by simpa [SessionOutput.hasReader, terminalPolicy] using hreader.1
      rw [hpty]
      exact h.appendOutput data
    · exact h
  | resume stream =>
    simp only [SessionOutput.step]
    unfold SessionOutput.resume
    split
    · exact KeepsTail.countDropped (h.congr rfl rfl rfl)
    · exact h.congr rfl rfl rfl
    · exact h
    · exact h
  | endOfFile stream =>
    simp only [SessionOutput.step]
    split
    · exact h.congr rfl rfl rfl
    · exact h
  | cancel stream =>
    simp only [SessionOutput.step]
    split
    · exact h.congr rfl rfl rfl
    · exact h
  | complete =>
    simp only [SessionOutput.step]
    split
    · exact h.congr rfl rfl rfl
    · exact h

theorem keepsTail_run (limit maxOutputEvents : ℕ) (inputs : List OutputInput) :
    KeepsTail limit (Machine.run (SessionOutput.step (terminalPolicy limit maxOutputEvents)) {} inputs) :=
  Machine.run_induct (fun _ input h => h.step input) ⟨List.drop_nil.symm, rfl⟩ inputs

/-- The reader is at its transport, or it has a truncation to report. -/
def Settling (s : SessionOutput) : Prop := s.readers .pty = .reading ∨ s.readers .pty = .reporting

theorem settling_countDropped (s : SessionOutput) (dropped : ℕ) :
    Settling (s.countDropped .pty dropped) ∧ (s.countDropped .pty dropped).received = s.received := by
  unfold SessionOutput.countDropped SessionOutput.setReader Settling
  split
  · simp
  · dsimp only
    split <;> simp

theorem Settling.resume (h : Settling s) : (s.resume .pty).readers .pty = .reading ∧ (s.resume .pty).received = s.received := by
  unfold SessionOutput.resume SessionOutput.setReader
  rcases h with h | h <;> rw [h] <;> simp [h]

theorem readers_setReader (s : SessionOutput) (stream : OutputStream) (reader : Runtime.Reader) :
    (s.setReader stream reader).readers stream = reader := by
  simp [SessionOutput.setReader]

/-- After the first await of a chunk the reader is inside the emit, or it settles. -/
theorem appendOutput_reader (s : SessionOutput) (chunk : Bytes) :
    let s' := (s.receive .pty chunk).appendOutput (terminalPolicy limit maxOutputEvents) .pty chunk
    s'.received.1 = s.received.1 ++ chunk ∧ (Settling s' ∨ ∃ dropped outputEvent, s'.readers .pty = .emitting dropped outputEvent) := by
  have hreceived : (SessionOutput.retain (terminalPolicy limit maxOutputEvents) .pty chunk
      { s.receive .pty chunk with totalOutputBytes := (s.receive .pty chunk).totalOutputBytes + chunk.length }).1.received.1 =
        s.received.1 ++ chunk := rfl
  unfold SessionOutput.appendOutput
  generalize SessionOutput.retain (terminalPolicy limit maxOutputEvents) .pty chunk
    { s.receive .pty chunk with totalOutputBytes := (s.receive .pty chunk).totalOutputBytes + chunk.length } = retained at hreceived
  obtain ⟨s', shown, dropped⟩ := retained
  dsimp only at hreceived ⊢
  split
  · exact ⟨hreceived, .inr ⟨dropped, true, readers_setReader _ _ _⟩⟩
  · split
    · exact ⟨hreceived, .inr ⟨dropped, false, readers_setReader _ _ _⟩⟩
    · obtain ⟨hsettling, hsame⟩ := settling_countDropped s' dropped
      exact ⟨by rw [hsame, hreceived], .inl hsettling⟩

/-- The emit ends, and the reader settles. -/
theorem settling_resume {dropped : ℕ} {outputEvent : Bool} (h : s.readers .pty = .emitting dropped outputEvent) :
    Settling (s.resume .pty) ∧ (s.resume .pty).received = s.received := by
  unfold SessionOutput.resume
  rw [h]
  exact settling_countDropped _ dropped

/-- A chunk is received, and the reader comes back to its transport after at most two awaits. -/
theorem run_chunk (hreader : s.readers .pty = .reading) (chunk : Bytes) :
    let s' := Machine.run (SessionOutput.step (terminalPolicy limit maxOutputEvents)) s [.chunk .pty chunk, .resume .pty, .resume .pty]
    s'.readers .pty = .reading ∧ s'.received.1 = s.received.1 ++ chunk := by
  have hchunk : s.step (terminalPolicy limit maxOutputEvents) (.chunk .pty chunk) =
      (s.receive .pty chunk).appendOutput (terminalPolicy limit maxOutputEvents) .pty chunk := by
    simp [SessionOutput.step, SessionOutput.hasReader, terminalPolicy, hreader]
  obtain ⟨hreceived, hreaders⟩ := @appendOutput_reader limit maxOutputEvents s chunk
  rw [Machine.run_cons, Machine.run_cons, Machine.run_cons, Machine.run_nil, hchunk]
  change ((SessionOutput.resume .pty (SessionOutput.resume .pty _)).readers .pty = _ ∧
    (SessionOutput.resume .pty (SessionOutput.resume .pty _)).received.1 = _)
  generalize (s.receive .pty chunk).appendOutput (terminalPolicy limit maxOutputEvents) .pty chunk = s' at hreceived hreaders
  have hsettled : Settling (s'.resume .pty) ∧ (s'.resume .pty).received = s'.received := by
    rcases hreaders with hsettling | ⟨dropped, outputEvent, hemitting⟩
    · exact ⟨.inl hsettling.resume.1, hsettling.resume.2⟩
    · exact settling_resume hemitting
  obtain ⟨hreading, hsame⟩ := hsettled.1.resume
  exact ⟨hreading, by rw [hsame, hsettled.2, hreceived]⟩

/-- Chunks are received as they arrive, each after the awaits of the one before. -/
theorem received_chunks (limit maxOutputEvents : ℕ) (chunks : List Bytes) :
    (Machine.run (SessionOutput.step (terminalPolicy limit maxOutputEvents)) {}
      (chunks.flatMap fun chunk => [.chunk .pty chunk, .resume .pty, .resume .pty])).received.1 = chunks.flatten := by
  suffices hall : ∀ s : SessionOutput, s.readers .pty = .reading →
      (Machine.run (SessionOutput.step (terminalPolicy limit maxOutputEvents)) s
        (chunks.flatMap fun chunk => [.chunk .pty chunk, .resume .pty, .resume .pty])).received.1 = s.received.1 ++ chunks.flatten from
    hall {} rfl
  induction chunks with
  | nil =>
    intro s _
    exact (List.append_nil _).symm
  | cons chunk chunks ih =>
    intro s hreader
    obtain ⟨hreading, hreceived⟩ := @run_chunk limit maxOutputEvents s hreader chunk
    rw [List.flatMap_cons, Machine.run_append, ih _ hreading, hreceived, List.flatten_cons, List.append_assoc]

/-! ## The longest suffix -/

/-- The longest suffix of a text whose encoding has at most so many bytes. -/
structure LongestSuffix (limit : ℕ) (text shown : PyStr) : Prop where
  suffix : shown <:+ text
  fits : ∃ encoded, encode shown = some encoded ∧ encoded.length ≤ limit
  longest : ∀ other, other <:+ text → (∃ encoded, encode other = some encoded ∧ encoded.length ≤ limit) → other <:+ shown

/-- The last bytes of an encoded text: what is left of one character, and the longest suffix that fits. -/
theorem exists_longestSuffix (limit : ℕ) {text : PyStr} {data : Bytes} (h : encode text = some data) :
    ∃ conts suffix encoded, data.drop (data.length - limit) = conts ++ encoded ∧ encode suffix = some encoded ∧
      LongestSuffix limit text suffix ∧ conts.length ≤ 3 ∧ ∀ byte ∈ conts, 0x80 ≤ byte.toNat ∧ byte.toNat < 0xC0 := by
  induction text generalizing data with
  | nil =>
    cases h
    exact ⟨[], [], [], List.drop_nil, rfl, ⟨List.suffix_refl _, ⟨[], rfl, Nat.zero_le _⟩, fun _ hother _ => hother⟩, Nat.zero_le _,
      nofun⟩
  | cons c text ih =>
    have hwhole := h
    rw [PyStr.encode_cons, Option.bind_eq_some_iff] at h
    obtain ⟨bytes, hbytes, hrest⟩ := h
    obtain ⟨rest, htext, rfl⟩ := Option.map_eq_some_iff.1 hrest
    obtain ⟨-, hlength, hconts⟩ := Utf8.feed_utf8 hbytes
    by_cases hall : (bytes ++ rest).length ≤ limit
    · refine ⟨[], c :: text, bytes ++ rest, ?_, hwhole, ⟨List.suffix_refl _, ⟨_, hwhole, hall⟩, fun _ hother _ => hother⟩,
        Nat.zero_le _, nofun⟩
      rw [Nat.sub_eq_zero_of_le hall]
      rfl
    have hproper : ∀ other, other <:+ c :: text → (∃ encoded, encode other = some encoded ∧ encoded.length ≤ limit) → other <:+ text := by
      rintro other hother ⟨encoded, hencoded, hfits⟩
      rcases List.suffix_cons_iff.1 hother with rfl | hother
      · rw [hwhole] at hencoded
        cases hencoded
        exact absurd hfits hall
      · exact hother
    rw [List.length_append] at hall
    by_cases htail : rest.length ≤ limit
    · have hdrop : bytes.length + rest.length - limit ≤ bytes.length := by omega
      refine ⟨bytes.drop (bytes.length + rest.length - limit), text, rest, ?_, htext,
        ⟨List.suffix_cons _ _, ⟨rest, htext, htail⟩, hproper⟩, ?_, fun byte hbyte => ?_⟩
      · rw [List.length_append, List.drop_append_of_le_length hdrop]
      · rw [List.length_drop]
        omega
      · obtain ⟨k, hk⟩ : ∃ k, bytes.length + rest.length - limit = k + 1 := ⟨bytes.length + rest.length - limit - 1, by omega⟩
        rw [hk, ← List.drop_tail] at hbyte
        exact hconts byte (List.mem_of_mem_drop hbyte)
    · obtain ⟨conts, suffix, encoded, hdrop, hsuffix, hlongest, hfew, hcontinues⟩ := ih htext
      refine ⟨conts, suffix, encoded, ?_, hsuffix, ⟨hlongest.suffix.trans (List.suffix_cons _ _), hlongest.fits,
        fun other hother hfits => hlongest.longest other (hproper other hother hfits) hfits⟩, hfew, hcontinues⟩
      have hskip : (bytes ++ rest).length - limit = bytes.length + (rest.length - limit) := by
        rw [List.length_append]
        omega
      rw [hskip, ← List.drop_drop, List.drop_left, hdrop]

/-- Bytes that begin no character are the invalid start of an encoded text after them. -/
theorem invalidPrefix_conts {suffix : PyStr} {conts encoded : Bytes} (hencoded : encode suffix = some encoded)
    (hconts : ∀ byte ∈ conts, 0x80 ≤ byte.toNat ∧ byte.toNat < 0xC0) : invalidPrefix (conts ++ encoded) = conts.length := by
  induction conts with
  | nil =>
    unfold invalidPrefix
    rw [List.nil_append, Utf8.items_encode hencoded]
    cases suffix <;> rfl
  | cons byte conts ih =>
    rw [List.forall_mem_cons] at hconts
    have hlead : Utf8.leadLength byte = 0 := by
      unfold Utf8.leadLength
      grind
    have hbegin : Utf8.begin byte = ([], [.invalid [byte]]) := by
      unfold Utf8.begin
      rw [hlead]
      rfl
    have hitems : items (byte :: (conts ++ encoded)) = .invalid [byte] :: items (conts ++ encoded) := by
      rw [Utf8.items_eq, Utf8.itemsFrom_cons]
      change (Utf8.begin byte).2 ++ Utf8.itemsFrom (Utf8.begin byte).1 (conts ++ encoded) = _
      rw [hbegin]
      rfl
    rw [List.cons_append, Utf8.invalidPrefix_append hitems, ih hconts.2]
    exact Nat.add_comm 1 conts.length

/-- An encoded text is decoded as it was. -/
theorem decode_encode {suffix : PyStr} {encoded : Bytes} (h : encode suffix = some encoded) :
    Utf8.decode .replace encoded = suffix.map (·.val) := by
  unfold Utf8.decode Utf8.textOf
  rw [Utf8.items_encode h, List.flatMap_map, List.map_eq_flatMap]
  rfl

/-- The terminal shows the longest suffix of the text that fits, in every run of the session that was given the encoding of the text, in
whatever chunks: for every limit, and where the limit cuts a character. -/
theorem tail_output (signalName : ℕ → Option String) (exitCode : Option Int) (outputByteLimit maxOutputEvents : ℕ) {text : PyStr}
    {data : Bytes} (hencode : encode text = some data) (inputs : List OutputInput)
    (hreceived : (Machine.run (SessionOutput.step (terminalPolicy outputByteLimit maxOutputEvents)) {} inputs).received.1 = data) :
    ∃ shown, LongestSuffix outputByteLimit text shown ∧
      (terminalOutput signalName (Machine.run (SessionOutput.step (terminalPolicy outputByteLimit maxOutputEvents)) {} inputs)
        exitCode).output = shown.map (·.val) := by
  have hkept := (keepsTail_run outputByteLimit maxOutputEvents inputs).stdout
  rw [hreceived] at hkept
  obtain ⟨conts, shown, encoded, hdrop, hshown, hlongest, hfew, hconts⟩ := exists_longestSuffix outputByteLimit hencode
  refine ⟨shown, hlongest, ?_⟩
  change decodeTail (Machine.run (SessionOutput.step (terminalPolicy outputByteLimit maxOutputEvents)) {} inputs).stdout = _
  rw [hkept, hdrop, decodeTail_eq, invalidPrefix_conts hshown hconts, if_pos hfew, List.drop_left]
  exact decode_encode hshown

/-- Two characters of three bytes in chunks that cut both, and a limit that cuts the first one. -/
theorem tail_output_cut :
    ∃ shown, LongestSuffix 4 (PyStr.ofString "€€") shown ∧
      (terminalOutput (fun _ => none) (Machine.run (SessionOutput.step (terminalPolicy 4 8)) {}
        ([[0xE2, 0x82], [0xAC, 0xE2], [0x82, 0xAC]].flatMap fun chunk => [.chunk .pty chunk, .resume .pty, .resume .pty]))
        none).output = shown.map (·.val) :=
  tail_output (fun _ => none) none 4 8 (show encode (PyStr.ofString "€€") = some [0xE2, 0x82, 0xAC, 0xE2, 0x82, 0xAC] by decide) _
    (received_chunks 4 8 _)

/-! ## Output that was not truncated -/

/-- The text of what was kept is complete exactly when it does not start with invalid bytes, or with more than three of them. -/
theorem untruncated_output (signalName : ℕ → Option String) (exitCode : Option Int) (session : SessionOutput) :
    (terminalOutput signalName session exitCode).output = Utf8.decode .replace session.stdout ↔
      invalidPrefix session.stdout = 0 ∨ 4 ≤ invalidPrefix session.stdout := by
  change decodeTail session.stdout = _ ↔ _
  rw [decodeTail_eq]
  split
  · rename_i hfew
    by_cases hzero : invalidPrefix session.stdout = 0
    · rw [hzero]
      exact iff_of_true rfl (.inl rfl)
    · refine iff_of_false (fun heq => ?_) (by omega)
      have hlength := congrArg List.length heq
      rw [Utf8.length_decode, Utf8.length_decode, (Utf8.invalid_drop session.stdout).2.1] at hlength
      obtain ⟨bytes, rest, hitems⟩ := (Utf8.invalid_drop session.stdout).1 0 (Nat.pos_of_ne_zero hzero)
      rw [List.drop_zero] at hitems
      have hshorter := (List.dropWhile_suffix (l := rest) Utf8.Item.isInvalid).length_le
      rw [hitems, List.dropWhile_cons_of_pos rfl, List.length_cons] at hlength
      omega
  · rename_i hmany
    exact iff_of_true rfl (.inr (by omega))

/-- An invalid first byte of output that was not truncated is lost. -/
theorem invalid_first_byte_lost :
    ¬∀ (policy : OutputPolicy) (inputs : List OutputInput) (signalName : ℕ → Option String) (exitCode : Option Int),
      let session := Machine.run (SessionOutput.step policy) {} inputs
      (terminalOutput signalName session exitCode).truncated = false →
        (terminalOutput signalName session exitCode).output = Utf8.decode .replace session.stdout := by
  intro h
  have hlost := h (terminalPolicy 16 8) [.chunk .pty [0x80, 0x61]] (fun _ => none) none (by decide)
  exact absurd hlost (by decide)

end Integrations

end SharkRail
