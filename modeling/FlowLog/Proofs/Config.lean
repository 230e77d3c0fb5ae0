import FlowLog.Proofs.Numeral
import FlowLog.Proofs.Service

/-!
# Configurations at work

A configuration that is read from an environment has a version that exists and a positive limit. A
request that leaves both to the configuration is compiled with them, as long as the limit is nearest
to a finite number. The limit is written as that number is written. Up to `2 ^ 53` this is the
integer of the environment itself.
-/

namespace FlowLog

open Fallible Schema.FlowRecords

namespace Config

variable {environment : Environment} {name : String} {config : Config}

/-- The integer that a variable holds, or a default for a variable that is missing or blank. -/
def written (environment : Environment) (name : String) (default : Nat) : Nat :=
  let value := Text.trim ((environment.lookup name).getD "").toList
  if value.isEmpty then default else Numeral.value value

theorem readInteger_eq_ok {chosen : Option Number} (default : Nat)
    (read : readInteger environment name = .ok chosen) :
    chosen.getD (.ofInt default) = .ofInt (written environment name default) := by
  unfold readInteger at read
  unfold written
  dsimp only at read ⊢
  split at read
  · next isBlank =>
      cases read
      simp [isBlank]
  · next notBlank =>
      split at read
      · cases read
        simp [notBlank]
      · cases read

/-- A variable that holds digits gives the number nearest to their value. -/
theorem readInteger_digits {digits : List Char} (trimmed : Text.trim digits = digits)
    (isDigits : Numeral.isDigits digits = true) (nonempty : digits ≠ []) :
    readInteger [(name, String.ofList digits)] name = .ok (some (.ofInt (Numeral.value digits))) := by
  simp [readInteger, trimmed, isDigits, nonempty]

theorem load_eq_ok (loaded : load environment = .ok config) :
    config.defaultLimit = .ofInt (written environment limitVariable 20) ∧
      written environment limitVariable 20 ≠ 0 ∧ Known config.defaultVersion := by
  rcases bind_eq_ok.1 loaded with ⟨limit, limitRead, rest⟩
  have limit_eq : limit.getD fallbackLimit = .ofInt (written environment limitVariable 20) :=
    readInteger_eq_ok 20 limitRead
  dsimp only at rest
  split at rest
  · cases rest
  · next notZero =>
      rcases bind_eq_ok.1 rest with ⟨version, -, final⟩
      split at final
      · cases final
      · next supported =>
          cases final
          refine ⟨limit_eq, ?_, known_iff_mem_versions.2 (not_not.1 supported)⟩
          intro isZero
          rw [limit_eq, isZero] at notZero
          exact notZero rfl

end Config

namespace Request

variable {config : Config}

theorem compile_count_finite (known : Known config.defaultVersion) {m : Nat} (positive : 0 < m)
    (limit_eq : config.defaultLimit = .integer m) :
    ({ verb := "count" } : Request).compile .flowRecords config =
      .ok (patternOf (recordFields config.defaultVersion) ++
        " | stats count(*) as flows | sort flows desc | limit " ++
          String.ofList config.defaultLimit.text) := by
  have natural : ∃ n ∈ config.defaultLimit.toInt?, 0 ≤ n := ⟨m, by rw [limit_eq]; rfl, by omega⟩
  have isPositive : config.defaultLimit.isPositive = true := by
    rw [limit_eq]
    simpa [Number.isPositive] using positive
  have compiled : ({ verb := "count" } : Request).compile .flowRecords config = .ok _ :=
    @Service.compile_count config none known natural
  have joined : " | stats count(*) as flows | sort flows desc" ++ " | limit " =
      " | stats count(*) as flows | sort flows desc | limit " := by decide
  rw [compiled, Query.text_eq, tail_count, if_pos isPositive, ← joined]
  simp only [String.append_assoc]
  rfl

theorem compile_count_infinite (known : Known config.defaultVersion)
    (infinite : config.defaultLimit = .infinite false) :
    ({ verb := "count" } : Request).compile .flowRecords config =
      .error (.query (.limitNotInteger (.infinite false))) := by
  rcases config with ⟨limit, version⟩
  cases infinite
  rcases known with rfl | rfl | rfl
  · rfl
  · rfl
  · rfl

/-- A configuration that an environment gives has a version whose records can be counted. The query
ends with the limit as the number nearest to it is written, which is the integer of the environment
itself up to `2 ^ 53`. A limit that is nearest to an infinity is refused. -/
theorem compile_loaded {environment : Environment} (loaded : Config.load environment = .ok config) :
    let limit := Config.written environment Config.limitVariable 20
    let compiled := ({ verb := "count" } : Request).compile .flowRecords config
    ∃ pattern, Schema.flowRecords.parsePattern config.defaultVersion = .ok pattern ∧
      let query (numeral : List Char) :=
        pattern ++ " | stats count(*) as flows | sort flows desc | limit " ++ String.ofList numeral
      compiled = (if limit < Number.infiniteFrom then .ok (query (Number.ofInt limit).text)
        else .error (.query (.limitNotInteger (.infinite false)))) ∧
      (compiled = .ok (query (Numeral.digits limit)) ↔
        (Number.ofInt limit).text = Numeral.digits limit) ∧
      (limit ≤ 2 ^ 53 → (Number.ofInt limit).text = Numeral.digits limit) := by
  intro limit compiled
  rcases Config.load_eq_ok loaded with ⟨limit_eq, notZero, known⟩
  refine ⟨_, parsePattern_eq known, ?_⟩
  intro query
  have finite : limit < Number.infiniteFrom → compiled = .ok (query (Number.ofInt limit).text) := by
    intro below
    rcases (Number.ofInt_natural limit).1 below with ⟨m, isInteger, positive⟩
    rw [← limit_eq] at isInteger ⊢
    exact compile_count_finite known (positive (Nat.pos_of_ne_zero notZero)) isInteger
  have infinite : Number.infiniteFrom ≤ limit →
      compiled = .error (.query (.limitNotInteger (.infinite false))) := by
    intro beyond
    apply compile_count_infinite known
    rw [limit_eq]
    exact (Number.ofInt_natural limit).2 beyond
  refine ⟨?_, ?_, ?_⟩
  · split
    · next below => exact finite below
    · next beyond => exact infinite (Nat.le_of_not_lt beyond)
  · by_cases below : limit < Number.infiniteFrom
    · rw [finite below, Except.ok.injEq, String.append_right_inj, String.ofList_inj]
    · have isInfinite := (Number.ofInt_natural limit).2 (Nat.le_of_not_lt below)
      rw [infinite (Nat.le_of_not_lt below), isInfinite]
      refine ⟨nofun, fun same => ?_⟩
      have isDigit : 'I'.isDigit = true := Numeral.isDigit_of_mem_digits (n := limit) (by
        rw [← same]
        decide)
      exact absurd isDigit (by decide)
  · intro small
    have safe : (limit : Int).natAbs ≤ Number.maxSafe + 1 := by
      rw [Int.natAbs_natCast, Number.maxSafe_eq]
      omega
    rw [Number.ofInt_eq_integer safe, Number.text_integer safe, Numeral.ofInt,
      if_neg (by omega), Int.natAbs_natCast]

/-- Blanks around an integer and zeros in front of it do not reach the query. -/
theorem compile_loaded_padded :
    let environment := [("FLOWQ_DEFAULT_VERSION", "05"), ("FLOWQ_DEFAULT_LIMIT", "\t0250 ")]
    Config.load environment = .ok ⟨250, 5⟩ ∧
      ∃ pattern, Schema.flowRecords.parsePattern 5 = .ok pattern ∧
        ({ verb := "count" } : Request).compile .flowRecords ⟨250, 5⟩ =
          .ok (pattern ++ " | stats count(*) as flows | sort flows desc | limit " ++ "250") := by
  intro environment
  have loaded : Config.load environment = .ok ⟨250, 5⟩ := by decide
  have written_eq : Config.written environment Config.limitVariable 20 = 250 := by decide
  rcases compile_loaded loaded with ⟨pattern, isPattern, -, exact_iff, exact_of_le⟩
  rw [written_eq] at exact_iff exact_of_le
  exact ⟨loaded, pattern, isPattern, exact_iff.2 (exact_of_le (by decide))⟩

/-- Two limits that are accepted and then lost: one is rounded to its neighbour, and the other is
refused by the query. -/
theorem loaded_limit_lost :
    (Config.load [("FLOWQ_DEFAULT_LIMIT", "9007199254740993")] = .ok ⟨.integer 9007199254740992, 2⟩ ∧
      ({ verb := "count" } : Request).compile .flowRecords ⟨.integer 9007199254740992, 2⟩ =
        .ok (patternOf (recordFields 2) ++
          " | stats count(*) as flows | sort flows desc | limit " ++ "9007199254740992")) ∧
    (Config.load [("FLOWQ_DEFAULT_LIMIT", String.ofList (List.replicate 309 '9'))] =
        .ok ⟨.infinite false, 2⟩ ∧
      ({ verb := "count" } : Request).compile .flowRecords ⟨.infinite false, 2⟩ =
        .error (.query (.limitNotInteger (.infinite false)))) := by
  refine ⟨⟨by decide +kernel, ?_⟩, ⟨?_, compile_count_infinite (.inl rfl) rfl⟩⟩
  · exact compile_count_finite (m := 9007199254740992) (.inl rfl) (by decide) rfl
  · unfold Config.load
    change (Config.readInteger [(Config.limitVariable, _)] Config.limitVariable >>= _) = _
    rw [Config.readInteger_digits (by decide +kernel) (by decide +kernel) (by decide)]
    decide +kernel

end Request

end FlowLog
