/-!
# Steps that may fail

Queries are made and filters are checked in steps of which each may fail, and the first failure
decides. The first lemmas take such a computation apart once it is known to have succeeded. Those
about `demand` compare it with a list of demands: a step that always fails with the same error is a
demand for what makes it succeed.
-/

namespace FlowLog.Fallible

variable {ε δ α β σ : Type}

theorem bind_eq_ok {first : Except ε α} {next : α → Except ε β} {result : β} :
    first >>= next = .ok result ↔ ∃ value, first = .ok value ∧ next value = .ok result := by
  constructor
  · intro succeeds
    cases first with
    | error fault => cases succeeds
    | ok value => exact ⟨value, rfl, succeeds⟩
  · rintro ⟨value, rfl, succeeds⟩
    exact succeeds

theorem bind_eq_error {first : Except ε α} {next : α → Except ε β} {fault : ε} :
    first >>= next = .error fault ↔
      first = .error fault ∨ ∃ value, first = .ok value ∧ next value = .error fault := by
  cases first with
  | error other => simp [bind, Except.bind]
  | ok value => simp [bind, Except.bind]

theorem map_eq_ok {change : α → β} {attempt : Except ε α} {result : β} :
    attempt.map change = .ok result ↔ ∃ value, attempt = .ok value ∧ change value = result := by
  cases attempt with
  | error fault => simp [Except.map]
  | ok value => simp [Except.map]

/-- The fault with which a computation fails. -/
def fault? : Except ε α → Option ε
  | .ok _ => none
  | .error fault => some fault

theorem fault?_eq_none {attempt : Except ε α} :
    fault? attempt = none ↔ ∃ value, attempt = .ok value := by
  cases attempt <;> simp [fault?]

theorem fault?_eq_some {attempt : Except ε α} {fault : ε} :
    fault? attempt = some fault ↔ attempt = .error fault := by
  cases attempt <;> simp [fault?]

theorem check_then_eq_ok {check : Except ε Unit} {value result : α} :
    (do check; return value) = .ok result ↔ check = .ok () ∧ value = result := by
  cases check with
  | error fault => simp [bind, Except.bind]
  | ok => simp [bind, Except.bind, pure, Except.pure]

theorem mapError_eq_ok {lift : ε → δ} {attempt : Except ε α} {result : α} :
    attempt.mapError lift = .ok result ↔ attempt = .ok result := by
  cases attempt with
  | error fault => exact ⟨nofun, nofun⟩
  | ok value =>
      constructor
      · rintro ⟨⟩
        rfl
      · rintro ⟨⟩
        rfl

theorem mapError_eq_error {lift : ε → δ} {attempt : Except ε α} {fault : δ} :
    attempt.mapError lift = .error fault ↔ ∃ cause, attempt = .error cause ∧ lift cause = fault := by
  cases attempt with
  | error cause =>
      constructor
      · rintro ⟨⟩
        exact ⟨cause, rfl, rfl⟩
      · rintro ⟨_, ⟨⟩, rfl⟩
        rfl
  | ok value =>
      constructor
      · rintro ⟨⟩
      · rintro ⟨cause, ⟨⟩, -⟩

theorem forM_eq_ok {check : α → Except ε Unit} {items : List α} :
    items.forM check = .ok () ↔ ∀ item ∈ items, check item = .ok () := by
  induction items with
  | nil => simp [List.forM, pure, Except.pure]
  | cons item rest ih =>
      change (check item >>= fun _ => rest.forM check) = .ok () ↔ _
      rw [bind_eq_ok, List.forall_mem_cons, ← ih]
      constructor
      · rintro ⟨⟨⟩, first, later⟩
        exact ⟨first, later⟩
      · rintro ⟨first, later⟩
        exact ⟨(), first, later⟩

/-- A run over a list fails with the fault of the first item that is refused. -/
theorem forM_eq_error {check : α → Except ε Unit} {items : List α} {fault : ε} :
    items.forM check = .error fault ↔ ∃ before item after, items = before ++ item :: after ∧
      (∀ earlier ∈ before, check earlier = .ok ()) ∧ check item = .error fault := by
  constructor
  · intro fails
    induction items with
    | nil => cases fails
    | cons item rest ih =>
        rcases bind_eq_error.1 fails with refused | ⟨⟨⟩, passed, restFails⟩
        · exact ⟨[], item, rest, rfl, by simp, refused⟩
        · rcases ih restFails with ⟨before, later, after, rfl, passedBefore, refused⟩
          exact ⟨item :: before, later, after, rfl,
            List.forall_mem_cons.2 ⟨passed, passedBefore⟩, refused⟩
  · rintro ⟨before, item, after, rfl, passed, refused⟩
    rw [List.forM_eq_forM, List.forM_append, List.forM_cons, ← List.forM_eq_forM,
      forM_eq_ok.2 passed, refused]
    rfl

theorem exists_of_forM_eq_error {check : α → Except ε Unit} {items : List α} {fault : ε}
    (fails : items.forM check = .error fault) : ∃ item ∈ items, check item = .error fault := by
  rcases forM_eq_error.1 fails with ⟨before, item, after, rfl, -, refused⟩
  exact ⟨item, by simp, refused⟩

theorem forM_congr {first second : α → Except ε Unit} {items : List α}
    (same : ∀ item ∈ items, first item = second item) : items.forM first = items.forM second := by
  induction items with
  | nil => rfl
  | cons item rest ih =>
      rw [List.forall_mem_cons] at same
      rw [List.forM, List.forM, same.1, ih same.2]

theorem forM_flatMap (parts : α → List β) (check : β → Except ε Unit) (items : List α) :
    (items.flatMap parts).forM check = items.forM fun item => (parts item).forM check := by
  induction items with
  | nil => rfl
  | cons item rest ih =>
      rw [List.flatMap_cons, List.forM, ← ih]
      simp only [List.forM_eq_forM, List.forM_append]

/-- What holds at the start and after every step that succeeds holds after a run that succeeds. -/
theorem foldlM_induction {step : σ → α → Except ε σ} {motive : List α → σ → Prop} {init : σ}
    (start : motive [] init)
    (preserves : ∀ {done state item next}, motive done state → step state item = .ok next →
      motive (done ++ [item]) next)
    {items : List α} {final : σ} (succeeds : items.foldlM step init = .ok final) :
    motive items final := by
  have onward : ∀ items done state, motive done state → items.foldlM step state = .ok final →
      motive (done ++ items) final := by
    intro items
    induction items with
    | nil =>
        rintro done state holds ⟨⟩
        rwa [List.append_nil]
    | cons item rest ih =>
        intro done state holds succeeds
        rw [List.foldlM_cons, bind_eq_ok] at succeeds
        rcases succeeds with ⟨next, stepped, restSucceeds⟩
        have reached := ih (done ++ [item]) next (preserves holds stepped) restSucceeds
        rwa [List.append_assoc, List.singleton_append] at reached
  exact onward items [] init start succeeds

/-! ## Demands -/

/-- Goes on if a condition holds, and fails with the given error if it does not. -/
def demand (error : ε) (condition : Prop) [Decidable condition] : Except ε Unit :=
  if condition then .ok () else .error error

section Demand

variable {error : ε} {condition : Prop} [Decidable condition]

theorem demand_congr {other : Prop} [Decidable other] (same : condition ↔ other) :
    demand error condition = demand error other := by
  by_cases holds : condition
  · rw [demand, demand, if_pos holds, if_pos (same.1 holds)]
  · rw [demand, demand, if_neg holds, if_neg (mt same.2 holds)]

theorem demand_bind_eq_ok {next : Unit → Except ε α} {result : α} :
    demand error condition >>= next = .ok result ↔ condition ∧ next () = .ok result := by
  by_cases holds : condition
  · simp [demand, holds, bind, Except.bind]
  · simp [demand, holds, bind, Except.bind]

theorem demand_bind_eq_error {next : Unit → Except ε α} {fault : ε}
    (fails : demand error condition >>= next = .error fault) :
    fault = error ∨ next () = .error fault := by
  by_cases holds : condition
  · right
    simpa [demand, holds, bind, Except.bind] using fails
  · left
    simpa [demand, holds, bind, Except.bind] using fails.symm

theorem demand_bind_of_true (holds : condition) (next : Unit → Except ε α) :
    demand error condition >>= next = next () := by
  rw [demand, if_pos holds]
  rfl

/-- Behind a demand its condition may be used. -/
theorem demand_bind_congr {first second : Unit → Except ε α} (same : condition → first () = second ()) :
    demand error condition >>= first = demand error condition >>= second := by
  by_cases holds : condition
  · rw [demand_bind_of_true holds, demand_bind_of_true holds, same holds]
  · rw [demand, if_neg holds]
    rfl

theorem mapError_eq_demand {lift : δ → ε} {attempt : Except δ Unit}
    (accepts : attempt = .ok () ↔ condition)
    (refuses : ∀ fault, attempt = .error fault → lift fault = error) :
    attempt.mapError lift = demand error condition := by
  cases attempt with
  | ok =>
      rw [demand, if_pos (accepts.1 rfl)]
      rfl
  | error fault =>
      have fails : ¬condition := by
        intro holds
        cases accepts.2 holds
      rw [demand, if_neg fails, ← refuses fault rfl]
      rfl

end Demand

theorem mapError_bind (lift : ε → δ) (first : Except ε α) (next : α → Except ε β) :
    (first >>= next).mapError lift =
      first.mapError lift >>= fun value => (next value).mapError lift := by
  cases first <;> rfl

/-- A change that the next step does not notice may be left out. -/
theorem mapError_map_bind (lift : ε → δ) (attempt : Except ε α) {change : α → α}
    {next : α → Except δ β} (same : ∀ value, next (change value) = next value) :
    (change <$> attempt).mapError lift >>= next = attempt.mapError lift >>= next := by
  cases attempt with
  | error fault => rfl
  | ok value => exact same value

theorem mapError_mapError {γ : Type} (lift : ε → δ) (further : δ → γ) (attempt : Except ε α) :
    (attempt.mapError lift).mapError further = attempt.mapError (further ∘ lift) := by
  cases attempt <;> rfl

end FlowLog.Fallible
