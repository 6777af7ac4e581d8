import SharkRail.Service.Master
import SharkRail.Lib.ClockOrder
import SharkRail.Lib.Fallible
import SharkRail.Theorems.Submission

/-!
# Settings and the arithmetic they feed

Two settings reach arithmetic with a range: the retention, which the cutoff of a pruning is counted back by, and the number of restarts,
whose power of two becomes a float. The delays of the restarts are `pause`, they add up to `total`, and this is what a run of failures
takes: that is how the window of the failures enters.
-/

namespace SharkRail

namespace Service

namespace Master

open Fallible

/-! ## One delay -/

/-- The delay after so many failures, as a number. -/
def pause (n : ℕ) : ℚ := min 30 (2 ^ (n - 1) / 4)

/-- Every pause takes some time. -/
theorem pause_pos (n : ℕ) : 0 < pause n := lt_min (by norm_num) (by positivity)

/-- No pause is longer than thirty seconds. -/
theorem pause_le (n : ℕ) : pause n ≤ 30 := min_le_left _ _

/-- A pause is no shorter after more failures. -/
theorem pause_mono {n m : ℕ} (h : n ≤ m) : pause n ≤ pause m := by
  have hpow : (2 : ℚ) ^ (n - 1) ≤ 2 ^ (m - 1) := pow_le_pow_right₀ one_le_two (by omega)
  exact min_le_min_left 30 (by linarith)

/-- The delay is thirty seconds from the eighth failure on. -/
theorem pause_eq_thirty {n : ℕ} (h : 8 ≤ n) : pause n = 30 := by
  have hpow : (2 : ℚ) ^ 7 ≤ 2 ^ (n - 1) := pow_le_pow_right₀ one_le_two (by omega)
  exact min_eq_left (by linarith)

/-- A power of two is converted if and only if its exponent is below 1024. -/
theorem ofInt?_two_pow (k : ℕ) : Binary64.ofInt? (2 ^ k) = if k < 1024 then some (2 ^ k) else none := by
  have hnearest : Binary64.nearest ((2 ^ k : ℤ) : ℚ) = 2 ^ k := by
    push_cast
    exact Binary64.nearest_two_pow k
  have hlt : |(2 : ℚ) ^ k| < 2 ^ 1024 ↔ k < 1024 := by
    rw [abs_of_pos (by positivity)]
    exact pow_lt_pow_iff_right₀ one_lt_two
  simp only [Binary64.ofInt?, hnearest, hlt]

/-- A quarter of a power of two that is a float is one. -/
theorem round_quarter {k : ℕ} (h : k < 1024) : Binary64.round (1 / 4 * 2 ^ k) = .finite (2 ^ k / 4) := by
  have hquarter : (1 / 4 * 2 ^ k : ℚ) = ((1 : ℤ) : ℚ) * 2 ^ ((k : ℤ) - 2) := by
    rw [zpow_sub₀ two_ne_zero, zpow_natCast]
    norm_num
    ring
  have hnearest : Binary64.nearest (1 / 4 * 2 ^ k) = 2 ^ k / 4 := by
    rw [hquarter, Binary64.nearest_mantissa (by norm_num) (by omega), ← hquarter]
    ring
  have hlt : |(2 : ℚ) ^ k / 4| < 2 ^ 1024 := by
    have hpow : (2 : ℚ) ^ k < 2 ^ 1024 := (pow_lt_pow_iff_right₀ one_lt_two).2 h
    have hpos : (0 : ℚ) < 2 ^ k := by positivity
    rw [abs_of_pos (by positivity)]
    exact (div_le_self hpos.le (by norm_num)).trans_lt hpow
  rw [Binary64.round, hnearest, if_pos hlt]

/-- A delay by the conversion of its power. -/
theorem restartDelay_of_some {n : ℕ} {power : ℚ} (h : Binary64.ofInt? (2 ^ (n - 1)) = some power) :
    restartDelay n = .ok (PyFloat.min (.finite 30) (Binary64.round (1 / 4 * power))) := by
  delta restartDelay
  rw [h]
  rfl

/-- The delay overflows where the power of two is no double. -/
theorem restartDelay_of_none {n : ℕ} (h : Binary64.ofInt? (2 ^ (n - 1)) = none) :
    restartDelay n = .error (.overflow "int too large to convert to float") := by
  delta restartDelay
  rw [h]
  rfl

/-- The delay is the pause for up to 1024 failures. -/
theorem restartDelay_eq {n : ℕ} (h : n ≤ 1024) : restartDelay n = .ok (.finite (pause n)) := by
  have hpower : n - 1 < 1024 := by omega
  rw [restartDelay_of_some ((ofInt?_two_pow (n - 1)).trans (if_pos hpower))]
  simp only [round_quarter hpower, PyFloat.min, PyFloat.lt, decide_eq_true_eq]
  split_ifs with hlt
  · rw [pause, min_eq_right hlt.le]
  · rw [pause, min_eq_left (not_lt.1 hlt)]

/-- The delay overflows from 1025 failures on. -/
theorem restartDelay_overflows {n : ℕ} (h : 1025 ≤ n) : restartDelay n = .error (.overflow "int too large to convert to float") := by
  have hpower : ¬n - 1 < 1024 := by omega
  exact restartDelay_of_none ((ofInt?_two_pow (n - 1)).trans (if_neg hpower))

/-- Where a delay is computed it is the one of the formula. -/
theorem restartDelay_eq_ok {n : ℕ} {delay : PyFloat} : restartDelay n = .ok delay ↔ n ≤ 1024 ∧ delay = .finite (pause n) := by
  constructor
  · intro h
    by_cases hn : n ≤ 1024
    · rw [restartDelay_eq hn] at h
      exact ⟨hn, (Except.ok.inj h).symm⟩
    · rw [restartDelay_overflows (by omega)] at h
      cases h
  · rintro ⟨hn, rfl⟩
    exact restartDelay_eq hn

/-- The delay is computed and lies in (0, 30]. -/
def DelaySafe (n : ℕ) : Prop := ∃ delay, restartDelay n = .ok (.finite delay) ∧ 0 < delay ∧ delay ≤ 30

/-- The delay can be computed just for up to 1024 failures. -/
theorem delaySafe_iff {n : ℕ} : DelaySafe n ↔ n ≤ 1024 := by
  constructor
  · rintro ⟨delay, hdelay, -⟩
    exact (restartDelay_eq_ok.1 hdelay).1
  · intro hn
    exact ⟨pause n, restartDelay_eq hn, pause_pos n, pause_le n⟩

/-! ## What the delays add up to -/

/-- The first delays, added up. -/
def total : ℕ → ℚ
  | 0 => 0
  | n + 1 => total n + pause (n + 1)

/-- More pauses take no less time. -/
theorem total_mono : Monotone total := monotone_nat_of_le_succ fun n => by
  rw [total]
  linarith [pause_pos (n + 1)]

/-- The pauses take some time or none. -/
theorem total_nonneg (n : ℕ) : 0 ≤ total n := total_mono (Nat.zero_le n)

/-- From the seventh failure on every pause takes thirty seconds. -/
theorem total_add_seven (n : ℕ) : total (n + 7) = 30 * n + 127 / 4 := by
  induction n with
  | zero => norm_num [total, pause]
  | succ n ih =>
    have hnext : total (n + 1 + 7) = total (n + 7) + pause (n + 8) := rfl
    rw [hnext, ih, pause_eq_thirty (by omega)]
    push_cast
    ring

/-- The time that the first 1024 pauses take. -/
theorem total_1024 : total 1024 = 122167 / 4 := by
  have h := total_add_seven 1017
  norm_num at h
  exact h

/-! ## The window -/

/-- Times that are within the window are not as far apart as a float above it. -/
theorem le_of_within {window : ℤ} {now stamp c : ℚ} (h : within window now stamp = true) (hc : Binary64.nearest c = c) (hpos : 0 ≤ c)
    (hle : c ≤ now - stamp) : c ≤ window := by
  have hnearest : c ≤ Binary64.nearest (now - stamp) := hc ▸ Binary64.nearest_mono hpos hle
  unfold within Binary64.round at h
  split_ifs at h
  · exact hnearest.trans (of_decide_eq_true h)
  · have hnonneg : ¬now - stamp < 0 := not_lt.2 (hpos.trans hle)
    simp [PyFloat.leInt, hnonneg] at h

/-- A time stamp is within the window where the exact difference is at most a double within it. -/
theorem within_of_le {window : ℤ} {now stamp c : ℚ} (hc : Binary64.nearest c = c) (hfinite : c < 2 ^ 1024) (hpos : stamp ≤ now)
    (hle : now - stamp ≤ c) (hwindow : c ≤ window) : within window now stamp = true := by
  have hnearest : Binary64.nearest (now - stamp) ≤ c := hc ▸ Binary64.nearest_mono (sub_nonneg.2 hpos) hle
  have hnonneg : 0 ≤ Binary64.nearest (now - stamp) := by
    have h := Binary64.nearest_mono le_rfl (sub_nonneg.2 hpos)
    rwa [Binary64.nearest_zero] at h
  rw [within, Binary64.round, if_pos (by rw [abs_of_nonneg hnonneg]; exact hnearest.trans_lt hfinite)]
  exact decide_eq_true (hnearest.trans hwindow)

/-- A small number of quarters is a double. -/
theorem nearest_quarters {n : ℤ} (h : |n| < 2 ^ 53) : Binary64.nearest (n / 4) = n / 4 := by
  have hq : (n / 4 : ℚ) = n * 2 ^ (-2 : ℤ) := by
    norm_num
    ring
  rw [hq]
  exact Binary64.nearest_mantissa h (by norm_num)

/-! ## Runs -/

/-- Each of the failures lies back at least as far as the delays of it and of those after it add up to. -/
def Spaced (ready : ℚ) : List ℚ → Prop
  | [] => True
  | stamp :: later => stamp + total (later.length + 1) ≤ ready ∧ Spaced ready later

variable {limit window : ℤ} {failures : List ℚ} {ready now : ℚ}

/-- What is left of spaced failures is spaced. -/
theorem Spaced.filter {p : ℚ → Bool} (h : Spaced ready failures) : Spaced ready (failures.filter p) := by
  induction failures with
  | nil => exact h
  | cons stamp later ih =>
    rw [List.filter_cons]
    split
    · have hlength := List.length_filter_le p later
      have htotal : total ((later.filter p).length + 1) ≤ total (later.length + 1) := total_mono (by omega)
      exact ⟨by linarith [h.1], ih h.2⟩
    · exact ih h.2

/-- A failure after the delay before it, and then a delay that is long enough for all that are remembered. -/
theorem Spaced.snoc {n : ℕ} (h : Spaced ready failures) (hnow : ready ≤ now) (hn : failures.length + 1 ≤ n) :
    Spaced (now + pause n) (failures ++ [now]) := by
  induction failures with
  | nil =>
    have hpause : pause 1 ≤ pause n := pause_mono (by simpa using hn)
    refine ⟨?_, trivial⟩
    simp only [List.length_nil, total]
    linarith
  | cons stamp later ih =>
    simp only [List.length_cons] at hn
    have hpause : pause (later.length + 2) ≤ pause n := pause_mono (by omega)
    have hlength : (later ++ [now]).length = later.length + 1 := by simp
    have htotal : total (later.length + 2) = total (later.length + 1) + pause (later.length + 2) := rfl
    rw [List.cons_append]
    refine ⟨?_, ih h.2 (by omega)⟩
    rw [hlength, htotal]
    linarith [h.1]

/-- What a turn does that goes on. -/
theorem workerExited_waits {failures' : List ℚ} {delay : PyFloat}
    (h : workerExited limit window failures false now = .ok (.waits failures' delay)) :
    failures' = failures.filter (within window now) ++ [now] ∧ (failures'.length : ℤ) ≤ limit ∧
      restartDelay failures'.length = .ok delay := by
  simp only [workerExited, Bool.false_eq_true, if_false] at h
  split_ifs at h with hlimit
  · cases h
  · obtain ⟨delay', hdelay, hverdict⟩ := bind_eq_ok.1 h
    cases hverdict
    exact ⟨rfl, not_lt.1 hlimit, hdelay⟩

/-- The failures of a run are spaced by their pauses. -/
theorem Run.spaced (h : Run limit window failures ready) : Spaced ready failures := by
  induction h with
  | start ready => exact trivial
  | restart hrun hnow h ih =>
    obtain ⟨rfl, -, hdelay⟩ := workerExited_waits h
    obtain ⟨-, hpause⟩ := restartDelay_eq_ok.1 hdelay
    cases hpause
    exact ih.filter.snoc hnow (by simp)

/-- In a window of at most 30541 seconds no more than 1024 failures of a run are remembered. -/
theorem length_le_of_window (h : Run limit window failures ready) (hnow : ready ≤ now) (hwindow : window ≤ 30541) :
    (failures.filter (within window now) ++ [now]).length ≤ 1024 := by
  have hspaced : Spaced ready (failures.filter (within window now)) := h.spaced.filter
  have hkept : ∀ stamp ∈ failures.filter (within window now), within window now stamp = true :=
    fun stamp hmem => (List.mem_filter.1 hmem).2
  rw [List.length_append, List.length_singleton]
  by_contra hlength
  cases hfilter : failures.filter (within window now) with
  | nil => simp [hfilter] at hlength
  | cons stamp later =>
    rw [hfilter] at hspaced hkept hlength
    rw [List.length_cons] at hlength
    have htotal : total 1024 ≤ total (later.length + 1) := total_mono (by omega)
    have hapart : (122167 / 4 : ℚ) ≤ now - stamp := by linarith [hspaced.1, total_1024]
    have hfloat : Binary64.nearest (122167 / 4) = 122167 / 4 := nearest_quarters (n := 122167) (by norm_num)
    have hle := le_of_within (hkept stamp (by simp)) hfloat (by norm_num) hapart
    have hcast : (window : ℚ) ≤ 30541 := by exact_mod_cast hwindow
    linarith

/-! ## The shortest run of failures -/

/-- The times of failures that each come at the end of the delay before. -/
def stamps (n : ℕ) : List ℚ := (List.range n).map total

/-- One more failure comes after all the pauses before it. -/
theorem stamps_succ (n : ℕ) : stamps (n + 1) = stamps n ++ [total n] := by
  simp [stamps, List.range_succ]

/-- They are all remembered, in a window of 30542 seconds or more. -/
theorem filter_stamps {n : ℕ} (hn : n ≤ 1024) (hwindow : 30542 ≤ window) : (stamps n).filter (within window (total n)) = stamps n := by
  refine List.filter_eq_self.2 fun stamp hmem => ?_
  obtain ⟨k, hk, rfl⟩ := List.mem_map.1 hmem
  have hfloat : Binary64.nearest (122168 / 4) = 122168 / 4 := nearest_quarters (n := 122168) (by norm_num)
  have hfirst : total k ≤ total n := total_mono (List.mem_range.1 hk).le
  have hlast : total n ≤ 122167 / 4 := total_1024 ▸ total_mono hn
  have hcast : (30542 : ℚ) ≤ window := by exact_mod_cast hwindow
  have hfinite : (122168 / 4 : ℚ) < 2 ^ 1024 := lt_of_lt_of_le (by norm_num) (pow_le_pow_right₀ one_le_two (by norm_num : 15 ≤ 1024))
  exact within_of_le hfloat hfinite hfirst (by linarith [total_nonneg k]) (by linarith)

/-- Failures that follow each other as fast as the pauses allow are a run, up to the 1024th. -/
theorem run_stamps (hlimit : 1024 ≤ limit) (hwindow : 30542 ≤ window) (n : ℕ) (hn : n ≤ 1024) : Run limit window (stamps n) (total n) := by
  induction n with
  | zero => exact .start 0
  | succ n ih =>
    refine .restart (ih (by omega)) le_rfl ?_
    have hlength : (stamps (n + 1)).length = n + 1 := by simp [stamps]
    have hnot : ¬((n + 1 : ℕ) : ℤ) > limit := by omega
    simp only [workerExited, Bool.false_eq_true, if_false, filter_stamps (by omega : n ≤ 1024) hwindow, ← stamps_succ, hlength, if_neg hnot,
      restartDelay_eq hn]
    rfl

/-! ## Restarts of a run -/

/-- The end of a turn is reached without raising, and a delay lies in (0, 30]. -/
def Restarts (limit window : ℤ) (failures : List ℚ) (stopped : Bool) (now : ℚ) : Prop :=
  ∃ verdict, workerExited limit window failures stopped now = .ok verdict ∧
    ∀ failures' delay, verdict = .waits failures' delay → ∃ q, delay = .finite q ∧ 0 < q ∧ q ≤ 30

/-- A failure is restarted where the failures in the window are few enough or their delay can be computed. -/
theorem restarts_of_length {stopped : Bool}
    (h : ((failures.filter (within window now) ++ [now]).length : ℤ) ≤ limit →
      (failures.filter (within window now) ++ [now]).length ≤ 1024) :
    Restarts limit window failures stopped now := by
  cases stopped with
  | true => exact ⟨.returns 0, rfl, nofun⟩
  | false =>
    by_cases hlimit : ((failures.filter (within window now) ++ [now]).length : ℤ) > limit
    · exact ⟨.returns 70, by simp only [workerExited, Bool.false_eq_true, if_false, if_pos hlimit]; rfl, nofun⟩
    · have hlength := h (not_lt.1 hlimit)
      refine ⟨.waits (failures.filter (within window now) ++ [now]) (.finite (pause (failures.filter (within window now) ++ [now]).length)),
        ?_, ?_⟩
      · simp only [workerExited, Bool.false_eq_true, if_false, if_neg hlimit, restartDelay_eq hlength]
        rfl
      · intro failures' delay hverdict
        cases hverdict
        exact ⟨_, rfl, pause_pos _, pause_le _⟩

/-- After 1024 such failures the next one is not restarted, where the limit would have allowed it. -/
theorem not_restarts_stamps (hlimit : 1025 ≤ limit) (hwindow : 30542 ≤ window) :
    ¬Restarts limit window (stamps 1024) false (total 1024) := by
  rintro ⟨verdict, hverdict, -⟩
  have hlength : (stamps 1025).length = 1025 := by simp [stamps]
  have hgoes : ¬((1025 : ℕ) : ℤ) > limit := by omega
  simp only [workerExited, Bool.false_eq_true, if_false, filter_stamps le_rfl hwindow, ← stamps_succ, hlength, if_neg hgoes,
    restartDelay_overflows le_rfl] at hverdict
  cases hverdict

/-- A control process restarts its workers after every run of failures if and only if there is no 1025th restart to compute a delay for. -/
theorem restarts_iff : (∀ failures ready now stopped, Run limit window failures ready → ready ≤ now →
    Restarts limit window failures stopped now) ↔
    limit ≤ 1024 ∨ window ≤ 30541 := by
  constructor
  · intro h
    by_contra hnot
    obtain ⟨hlimit, hwindow⟩ := not_or.1 hnot
    exact not_restarts_stamps (by omega) (by omega) (h _ _ _ false (run_stamps (by omega) (by omega) 1024 le_rfl) le_rfl)
  · rintro (hlimit | hwindow) failures ready now stopped hrun hnow
    · exact restarts_of_length fun hle => by exact_mod_cast hle.trans hlimit
    · exact restarts_of_length fun _ => length_le_of_window hrun hnow hwindow

end Master

/-! ## Checked settings -/

namespace Config

open Fallible

/-- A setting is accepted where its default is no integer or its value is a positive one. -/
theorem checkSetting_eq_ok {group : Group} {setting : String × Json} :
    group.checkSetting setting = .ok () ↔ ((Json.get? group.defaults setting.1).any isInt = true → isPositive setting.2 = true) := by
  unfold Group.checkSetting
  cases hdefault : (Json.get? group.defaults setting.1).any isInt <;> cases hpositive : isPositive setting.2 <;>
    simp [throw_ne_ok, pure_eq_ok]

/-- A configuration passes if and only if each of its settings whose default is an integer is an integer above zero. -/
theorem positiveValues_eq_ok {config : ServiceConfig} :
    positiveValues config = .ok () ↔ ∀ group ∈ groups config, ∀ setting ∈ group.values,
      (Json.get? group.defaults setting.1).any isInt = true → isPositive setting.2 = true := by
  simp only [positiveValues, forM_eq_ok, checkSetting_eq_ok]

/-- A validated setting whose default is an integer is a positive integer. -/
theorem positive_setting {config : ServiceConfig} (h : positiveValues config = .ok ()) {group : Group} (hgroup : group ∈ groups config)
    {name : String} {value : Json} (hmem : (name, value) ∈ group.values) (hdefault : (Json.get? group.defaults name).any isInt = true) :
    ∃ n, value = .int n ∧ 0 < n := by
  have hpositive := positiveValues_eq_ok.1 h group hgroup (name, value) hmem hdefault
  cases value with
  | int n => exact ⟨n, rfl, of_decide_eq_true hpositive⟩
  | _ => cases hpositive

/-- A validated setting of the control plane whose default is an integer is a positive integer. -/
theorem positive_control {config : ServiceConfig} (h : positiveValues config = .ok ()) {name : String} {value : Json}
    (hmem : (name, value) ∈ config.control.asdict) (hdefault : (Json.get? (ControlSettings.asdict {}) name).any isInt = true) :
    ∃ n, value = .int n ∧ 0 < n := by
  have hgroup : ⟨"ControlSettings", ControlSettings.asdict {}, config.control.asdict⟩ ∈ groups config := by simp [groups]
  exact positive_setting h hgroup hmem hdefault

/-- A validated time to live is a positive integer. -/
theorem positive_jobTtlSeconds {config : ServiceConfig} (h : positiveValues config = .ok ()) :
    ∃ n, config.jobTtlSeconds = .int n ∧ 0 < n := by
  have hvolatile : ⟨"VolatileStoreSettings", VolatileStoreSettings.asdict {}, config.volatileStore.asdict⟩ ∈ groups config := by
    simp [groups]
  have hdurable : ⟨"DurableStoreSettings", DurableStoreSettings.asdict {}, config.durableStore.asdict⟩ ∈ groups config := by simp [groups]
  unfold ServiceConfig.jobTtlSeconds
  split
  · have hmem : ("job_ttl_seconds", config.volatileStore.jobTtlSeconds) ∈ config.volatileStore.asdict := by
      simp [VolatileStoreSettings.asdict]
    exact positive_setting h hvolatile hmem rfl
  · have hmem : ("job_ttl_seconds", config.durableStore.jobTtlSeconds) ∈ config.durableStore.asdict := by simp [DurableStoreSettings.asdict]
    exact positive_setting h hdurable hmem rfl

end Config

/-! ## The cutoff -/

/-- A cutoff is computed if and only if the retention does not go back before the first date. -/
theorem cutoff_iff {now ttl : ℤ} (httl : 0 < ttl) (hnow : Instant.IsDatetime now) :
    (∃ cutoff, Instant.minusSeconds now ttl = some cutoff) ↔ Instant.datetimeMin ≤ now - ttl * Instant.second := by
  constructor
  · rintro ⟨cutoff, h⟩
    unfold Instant.minusSeconds at h
    split at h
    · rename_i hrange
      exact hrange.2.2.1
    · cases h
  · intro hmin
    have hfirst : (-62135596800000000 : ℤ) ≤ now - ttl * 1000000 := hmin
    have hlast : now ≤ (253402300799999999 : ℤ) := hnow.2
    have hdays : -999999999 ≤ ttl / 86400 ∧ ttl / 86400 ≤ 999999999 := by omega
    have hend : now - ttl * 1000000 ≤ (253402300799999999 : ℤ) := by omega
    exact ⟨_, if_pos ⟨hdays.1, hdays.2, hmin, hend⟩⟩

/-- A pruning returns if and only if its cutoff is computed. -/
theorem pruneExpired_returns_iff {cfg : StoreConfig} {s : Store} (clock : Reading) (before after : Option Store.Cleaner)
    (hs : Store.Reachable cfg s) : (∃ n s', Store.pruneExpired cfg clock before after s = (.ok n, s')) ↔
      ∃ cutoff, clock.now.minusSeconds cfg.jobTtlSeconds = some cutoff := by
  constructor
  · rintro ⟨n, s', hreturned⟩
    rw [← Option.isSome_iff_exists, Option.isSome_iff_ne_none]
    intro hnone
    obtain ⟨m, s₁, h₁, -⟩ := Store.finalizeOutputDeletions_returns cfg before s
    simp only [Store.pruneExpired, h₁, Outcome.andThen, hnone] at hreturned
    cases hreturned
  · rintro ⟨cutoff, hcutoff⟩
    obtain ⟨n, s', hreturned, -⟩ := Store.pruneExpired_returns cfg clock before after hs.wellFormed hcutoff
    exact ⟨n, s', hreturned⟩

/-! ## A checked configuration -/

open Master in
/-- A pruning of a checked configuration returns exactly at the times that its retention does not go back from before the first date, and
the delays of its restarts are computed exactly where there is no 1025th restart: for all counts up to the limit that is a limit of at most
1024, and in a run of the control process it is also a window that is too short for so many failures. -/
theorem checked_arithmetic_iff {config : Config.ServiceConfig} (h : Config.positiveValues config = .ok ()) :
    ∃ ttl limit window : ℤ, config.jobTtlSeconds = .int ttl ∧ config.control.workerRestartLimit = .int limit ∧
      config.control.workerRestartWindowSeconds = .int window ∧
      (∀ (cfg : StoreConfig) (s : Store) (clock : Reading) (before after : Option Store.Cleaner), cfg.jobTtlSeconds = ttl →
        Store.Reachable cfg s →
        clock.now.IsDatetime → ((∃ n s', Store.pruneExpired cfg clock before after s = (.ok n, s')) ↔
          Instant.datetimeMin ≤ clock.now - ttl * Instant.second)) ∧
      ((∀ n : ℕ, 1 ≤ n → (n : ℤ) ≤ limit → DelaySafe n) ↔ limit ≤ 1024) ∧
      ((∀ failures ready now stopped, Run limit window failures ready → ready ≤ now → Restarts limit window failures stopped now) ↔
        limit ≤ 1024 ∨ window ≤ 30541) := by
  obtain ⟨ttl, hjobTtl, httl⟩ := Config.positive_jobTtlSeconds h
  have hlimitIn : ("worker_restart_limit", config.control.workerRestartLimit) ∈ config.control.asdict := by
    simp [Config.ControlSettings.asdict]
  have hwindowIn : ("worker_restart_window_seconds", config.control.workerRestartWindowSeconds) ∈ config.control.asdict := by
    simp [Config.ControlSettings.asdict]
  obtain ⟨limit, hlimit, -⟩ := Config.positive_control h hlimitIn rfl
  obtain ⟨window, hwindow, -⟩ := Config.positive_control h hwindowIn rfl
  refine ⟨ttl, limit, window, hjobTtl, hlimit, hwindow, ?_, ?_, restarts_iff⟩
  · rintro cfg s clock before after rfl hs hclock
    exact (pruneExpired_returns_iff clock before after hs).trans (cutoff_iff httl hclock)
  · constructor
    · intro hsafe
      by_contra hnot
      have hn := delaySafe_iff.1 (hsafe 1025 (by omega) (by omega))
      omega
    · intro hle n _ hn
      exact delaySafe_iff.2 (by omega)

/-- A retention of five thousand years, and restarts that may go on for hours. -/
def longSettings : Config.ServiceConfig :=
  { control := { workerRestartLimit := .int 1025, workerRestartWindowSeconds := .int 30542 }
    volatileStore := { jobTtlSeconds := .int 157680000000 } }

open Master in
/-- With the default limit and window every failure that is not too late is restarted. -/
theorem restarts_default : ∃ limit window : ℤ, Config.ControlSettings.workerRestartLimit {} = .int limit ∧
    Config.ControlSettings.workerRestartWindowSeconds {} = .int window ∧
    ∀ failures ready now stopped, Run limit window failures ready → ready ≤ now → Restarts limit window failures stopped now := by
  have hchecked : Config.positiveValues {} = .ok () := rfl
  obtain ⟨-, limit, window, -, hlimit, hwindow, -, -, hruns⟩ := checked_arithmetic_iff hchecked
  cases hlimit
  exact ⟨5, window, rfl, hwindow, hruns.2 (.inl (by decide))⟩

open Master in
/-- Such settings pass the check; a pruning in 2023 has no cutoff, and after 1024 failures at the end of the delay of each one before the
next delay is not computed. -/
theorem longSettings_overflow : Config.positiveValues longSettings = .ok () ∧
    (longSettings.jobTtlSeconds = .int 157680000000 ∧ Instant.minusSeconds 1700000000000000 157680000000 = none) ∧
    Run 1025 30542 (stamps 1024) (total 1024) ∧ ¬Restarts 1025 30542 (stamps 1024) false (total 1024) := by
  refine ⟨rfl, ⟨rfl, by decide⟩, run_stamps (by norm_num) le_rfl 1024 le_rfl, ?_⟩
  exact not_restarts_stamps le_rfl le_rfl

end Service

end SharkRail
