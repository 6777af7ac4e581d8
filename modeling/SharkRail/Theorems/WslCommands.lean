import SharkRail.Lib.Fallible
import SharkRail.Runtime.Routing

/-!
# The WSL launcher's commands

What `parse_wsl_invocation` accepts, as a grammar: options with their values, each option at most once, then `--exec` and the command
(`parseWslOptions_eq_ok`, by induction on the options that are read). What `_wsl_spec` writes is in the grammar, with the options that
have a value, whatever the command and the values look like.
-/

namespace SharkRail

namespace Runtime

open Integrations (CommandSpec directCommand truthy)

/-- `text.lower()`, on ASCII. -/
def asciiLower (text : PyStr) : PyStr := text.map fun c => if 65 ≤ c.val ∧ c.val ≤ 90 then .ofNat (c.val + 32) else c

/-- `str.casefold` makes ASCII lower case. -/
def FoldsAscii (casefold : PyStr → PyStr) : Prop := ∀ s : PyStr, (∀ c ∈ s, c.val < 128) → casefold s = asciiLower s

/-- An optional string, as an argument holds it. -/
def optional : Option PyStr → PyJson
  | none => .null
  | some s => .str s

/-- Options with their values, as a launcher command line has them. -/
def written (options : List (PyStr × PyStr)) : List PyJson := options.flatMap fun o => [.str o.1, .str o.2]

/-- A launcher command line: options with values that are not empty, each option at most once, then the command. -/
structure Launches (options : List (PyStr × PyStr)) (executable : PyStr) (rest argv : List PyJson) : Prop where
  argv_eq : argv = written options ++ .str "--exec" :: .str executable :: rest
  known : ∀ o ∈ options, o.1 ∈ wslValueOptions ∧ o.2 ≠ []
  distinct : (options.map Prod.fst).Nodup
  executable_ne : executable ≠ []

/-- The value of an option, `otherwise` where it is not there. -/
def valueOf (name : PyStr) (otherwise : Option PyStr) (options : List (PyStr × PyStr)) : Option PyStr :=
  (options.lookup name).or otherwise

theorem exec_not_option : ("--exec" : PyStr) ∉ wslValueOptions := by decide

/-! ## The grammar -/

variable {options : List (PyStr × PyStr)} {executable : PyStr} {rest argv : List PyJson} {seen : List PyStr} {cwd : Option PyStr}

/-- One option is read. -/
theorem parseWslOptions_option {option value : PyStr} (hknown : option ∈ wslValueOptions) (hseen : option ∉ seen) (hvalue : value ≠ []) :
    parseWslOptions (.str option :: .str value :: argv) seen cwd =
      parseWslOptions argv (option :: seen) (if option = "--cd" then some value else cwd) := by
  have hexec : option ≠ "--exec" := fun h => exec_not_option (h ▸ hknown)
  rw [parseWslOptions, if_neg hexec, if_neg (not_not_intro hknown), if_neg hseen, if_neg hvalue]

theorem parseWslOptions_exec (hexecutable : executable ≠ []) :
    parseWslOptions (.str "--exec" :: .str executable :: rest) seen cwd = .ok { executable, cwd } := by
  rw [parseWslOptions, if_pos rfl, if_neg hexecutable]
  rfl

/-- What the parser returns for a command line of the grammar. -/
theorem parseWslOptions_launches (h : Launches options executable rest argv) (hseen : ∀ o ∈ options, o.1 ∉ seen) :
    parseWslOptions argv seen cwd = .ok { executable, cwd := valueOf "--cd" cwd options } := by
  obtain ⟨rfl, hknown, hdistinct, hexecutable⟩ := h
  induction options generalizing seen cwd with
  | nil => exact parseWslOptions_exec hexecutable
  | cons o options ih =>
    obtain ⟨option, value⟩ := o
    rw [List.forall_mem_cons] at hknown hseen
    rw [List.map_cons, List.nodup_cons] at hdistinct
    have hrest : ∀ o ∈ options, o.1 ∉ option :: seen := by
      intro o ho hmem
      rcases List.mem_cons.1 hmem with heq | hmem
      · exact hdistinct.1 (List.mem_map.2 ⟨o, ho, heq⟩)
      · exact hseen.2 o ho hmem
    change parseWslOptions (.str option :: .str value :: (written options ++ .str "--exec" :: .str executable :: rest)) seen cwd = _
    rw [parseWslOptions_option hknown.1.1 hseen.1 hknown.1.2, ih hrest hknown.2 hdistinct.2]
    have hvalue : valueOf "--cd" (if option = "--cd" then some value else cwd) options = valueOf "--cd" cwd
      ((option, value) :: options) := by
      unfold valueOf
      by_cases hcd : option = "--cd"
      · have hnone : options.lookup ("--cd" : PyStr) = none := by
          rw [List.lookup_eq_none_iff]
          intro o ho
          have hne : "--cd" ≠ o.1 := fun heq => hdistinct.1 (List.mem_map.2 ⟨o, ho, heq.symm.trans hcd.symm⟩)
          simpa using hne
        rw [if_pos hcd, hnone, hcd, List.lookup_cons_self]
        rfl
      · rw [if_neg hcd, List.lookup_cons]
        have hbeq : ("--cd" == option) = false := by simpa using Ne.symm hcd
        rw [hbeq]
    rw [hvalue]

/-- A command line that is parsed is of the grammar; its options are new. -/
theorem launches_of_parsed {invocation : WslInvocation} (h : parseWslOptions argv seen cwd = .ok invocation) :
    ∃ options executable rest, Launches options executable rest argv ∧ ∀ o ∈ options, o.1 ∉ seen := by
  fun_induction parseWslOptions argv seen cwd with
  | case4 seen cwd executable rest hexecutable =>
    exact ⟨[], executable, rest, ⟨rfl, nofun, List.nodup_nil, hexecutable⟩, nofun⟩
  | case10 option seen cwd hexec hknown hseen value argv hvalue ih =>
    obtain ⟨options, executable, rest, ⟨hargv, hoptions, hdistinct, hexecutable⟩, hnew⟩ := ih h
    have hoption : option ∉ options.map Prod.fst := by
      intro hmem
      obtain ⟨o, ho, heq⟩ := List.mem_map.1 hmem
      exact hnew o ho (heq ▸ List.mem_cons_self)
    refine ⟨(option, value) :: options, executable, rest, ⟨?_, ?_, List.nodup_cons.2 ⟨hoption, hdistinct⟩, hexecutable⟩, ?_⟩
    · rw [hargv]
      rfl
    · exact List.forall_mem_cons.2 ⟨⟨not_not.1 hknown, hvalue⟩, hoptions⟩
    · exact List.forall_mem_cons.2 ⟨hseen, fun o ho hmem => hnew o ho (List.mem_cons_of_mem _ hmem)⟩
  | case1 | case2 | case3 | case5 | case6 | case7 | case8 | case9 | case11 | case12 => cases h

/-- What the parser returns, and for which command lines. -/
theorem parseWslOptions_eq_ok {invocation : WslInvocation} :
    parseWslOptions argv [] none = .ok invocation ↔
      ∃ options executable rest, Launches options executable rest argv ∧
        invocation = { executable, cwd := options.lookup ("--cd" : PyStr) } := by
  constructor
  · intro h
    obtain ⟨options, executable, rest, hlaunches, hnew⟩ := launches_of_parsed h
    refine ⟨options, executable, rest, hlaunches, ?_⟩
    rw [parseWslOptions_launches hlaunches hnew] at h
    cases h
    rw [valueOf, Option.or_none]
  · rintro ⟨options, executable, rest, hlaunches, rfl⟩
    rw [parseWslOptions_launches hlaunches fun _ _ => List.not_mem_nil, valueOf, Option.or_none]

/-! ## What is written -/

/-- An option, where it has a value. -/
def given (name : PyStr) (value : Option PyStr) : List (PyStr × PyStr) := ((value.filter (· ≠ [])).map (Prod.mk name)).toList

/-- An option is given a value or it is not. -/
theorem given_cases (name : PyStr) (value : Option PyStr) :
    given name value = [] ∧ truthy (optional value) = false ∧ value.filter (· ≠ []) = none ∨
      ∃ text, text ≠ [] ∧ given name value = [(name, text)] ∧ optional value = .str text ∧ truthy (optional value) = true ∧
        value.filter (· ≠ []) = some text := by
  unfold given
  cases value with
  | none => exact .inl ⟨rfl, rfl, rfl⟩
  | some text =>
    by_cases htext : text = []
    · simp [htext, optional, truthy]
    · simp [htext, optional, truthy]

theorem written_given (name : PyStr) (value : Option PyStr) :
    written (given name value) = if truthy (optional value) then [.str name, optional value] else [] := by
  rcases given_cases name value with ⟨hgiven, htruthy, -⟩ | ⟨text, -, hgiven, hvalue, htruthy, -⟩
  · rw [hgiven, htruthy]
    rfl
  · rw [hgiven, htruthy, hvalue]
    rfl

theorem mem_given {name : PyStr} {value : Option PyStr} {o : PyStr × PyStr} (h : o ∈ given name value) : o.1 = name ∧ o.2 ≠ [] := by
  rcases given_cases name value with ⟨hgiven, -⟩ | ⟨text, htext, hgiven, -⟩
  · rw [hgiven] at h
    cases h
  · rw [hgiven, List.mem_singleton] at h
    rw [h]
    exact ⟨rfl, htext⟩

theorem names_given (name : PyStr) (value : Option PyStr) : ((given name value).map Prod.fst).Sublist [name] := by
  rcases given_cases name value with ⟨hgiven, -⟩ | ⟨text, -, hgiven, -⟩ <;> rw [hgiven]
  · exact List.nil_sublist _
  · exact List.Sublist.refl _

/-- The options that have a value, as they are written. -/
def givenOptions (distribution user cwd : Option PyStr) : List (PyStr × PyStr) :=
  given "--distribution" distribution ++ given "--user" user ++ given "--cd" cwd

theorem lookup_given_ne {name other : PyStr} (hne : other ≠ name) (value : Option PyStr) : (given name value).lookup other = none := by
  rw [List.lookup_eq_none_iff]
  intro o ho
  rw [(mem_given ho).1]
  simpa using hne

/-- The directory that is written is the one that has a value. -/
theorem lookup_givenOptions (distribution user cwd : Option PyStr) :
    (givenOptions distribution user cwd).lookup ("--cd" : PyStr) = cwd.filter (· ≠ []) := by
  unfold givenOptions
  rw [List.lookup_append, List.lookup_append, lookup_given_ne (by decide), lookup_given_ne (by decide)]
  rcases given_cases "--cd" cwd with ⟨hgiven, -, hvalue⟩ | ⟨text, -, hgiven, -, -, hvalue⟩ <;> rw [hgiven, hvalue]
  · rfl
  · simp

/-- What `_wsl_spec` writes is of the grammar. -/
theorem launches_directCommand (hexecutable : executable ≠ []) (argv : List PyJson) (distribution user cwd : Option PyStr)
    (spec : CommandSpec) :
    Launches (givenOptions distribution user cwd) executable argv
      (directCommand executable argv .wsl ⟨optional distribution, optional user, optional cwd⟩ spec).argv := by
  refine ⟨?_, ?_, ?_, hexecutable⟩
  · have happend : ∀ options options' : List (PyStr × PyStr), written (options ++ options') = written options ++ written options' :=
      fun _ _ => List.flatMap_append
    rw [givenOptions, happend, happend, written_given, written_given, written_given]
    exact List.append_assoc _ _ _
  · intro o ho
    rw [givenOptions, List.mem_append, List.mem_append] at ho
    rcases ho with (ho | ho) | ho
    all_goals
      obtain ⟨hname, hvalue⟩ := mem_given ho
      rw [hname]
      exact ⟨by decide, hvalue⟩
  · have hsublist : ((givenOptions distribution user cwd).map Prod.fst).Sublist wslValueOptions := by
      rw [givenOptions, List.map_append, List.map_append]
      exact ((names_given _ _).append (names_given _ _)).append (names_given _ _)
    exact hsublist.nodup (by decide)

/-! ## The launcher -/

theorem isWslLauncher_wsl {casefold : PyStr → PyStr} (h : FoldsAscii casefold) : isWslLauncher casefold "wsl.exe" = true := by
  have hname : ntBasename "wsl.exe" = "wsl.exe" := by decide
  have hascii : ∀ c ∈ PyStr.ofString "wsl.exe", c.val < 128 := by decide
  unfold isWslLauncher
  rw [hname, h "wsl.exe" hascii]
  decide

/-- The codec and the grammar agree: what is written for WSL is parsed as the command and the directory that it was written for, whatever
they look like; and a launcher's command line is parsed exactly when it is options with values, each option at most once, then the
delimiter and a command. -/
theorem wsl_codec {casefold : PyStr → PyStr} (hcasefold : FoldsAscii casefold) :
    (∀ executable argv distribution user cwd spec, executable ≠ [] →
      parseWslInvocation casefold (directCommand executable argv .wsl ⟨optional distribution, optional user, optional cwd⟩ spec) =
        .ok (some { executable, cwd := cwd.filter (· ≠ []) })) ∧
    ∀ spec, isWslLauncher casefold spec.executable = true → ∀ result, parseWslInvocation casefold spec = .ok result ↔
      ∃ options executable rest, Launches options executable rest spec.argv ∧
        result = some { executable, cwd := options.lookup ("--cd" : PyStr) } := by
  have hparse : ∀ spec, isWslLauncher casefold spec.executable = true → ∀ result, parseWslInvocation casefold spec = .ok result ↔
      ∃ options executable rest, Launches options executable rest spec.argv ∧
        result = some { executable, cwd := options.lookup ("--cd" : PyStr) } := by
    intro spec hlauncher result
    unfold parseWslInvocation
    rw [if_pos hlauncher]
    constructor
    · intro h
      cases hparsed : parseWslOptions spec.argv [] none with
      | error e =>
        rw [hparsed] at h
        cases h
      | ok invocation =>
        rw [hparsed] at h
        cases h
        obtain ⟨options, executable, rest, hlaunches, hinvocation⟩ := parseWslOptions_eq_ok.1 hparsed
        exact ⟨options, executable, rest, hlaunches, congrArg some hinvocation⟩
    · rintro ⟨options, executable, rest, hlaunches, rfl⟩
      rw [parseWslOptions_eq_ok.2 ⟨options, executable, rest, hlaunches, rfl⟩]
      rfl
  refine ⟨fun executable argv distribution user cwd spec hexecutable => ?_, hparse⟩
  have hlauncher : isWslLauncher casefold
      (directCommand executable argv .wsl ⟨optional distribution, optional user, optional cwd⟩ spec).executable = true :=
    isWslLauncher_wsl hcasefold
  rw [hparse _ hlauncher, ← lookup_givenOptions distribution user cwd]
  exact ⟨_, executable, argv, launches_directCommand hexecutable argv distribution user cwd spec, rfl⟩

/-- An option that looks like the delimiter, and a command that looks like an option. -/
theorem wsl_codec_option_like :
    parseWslInvocation asciiLower
      (directCommand "--cd" [.str "--exec"] .wsl ⟨.str "--exec", .null, .str "--user"⟩ { executable := [], argv := [] }) =
        .ok (some { executable := "--cd", cwd := some (PyStr.ofString "--user") }) :=
  (wsl_codec fun _ _ => rfl).1 "--cd" [.str "--exec"] (some (PyStr.ofString "--exec")) none (some (PyStr.ofString "--user")) _ (by decide)

end Runtime

end SharkRail
