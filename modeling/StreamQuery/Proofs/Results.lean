import Mathlib.Data.List.Forall2
import StreamQuery.Error
namespace StreamQuery

/-! What holds of the results of computations that can fail. There is one rule for each way in which
a computation goes on from one part to the next. -/

def Ensures (result : Except QueryError α) (holds : α → Prop) : Prop :=
  ∀ value, result = .ok value → holds value

theorem ensures_ok {value : α} {holds : α → Prop} (valid : holds value) :
    Ensures (.ok value) holds := by
  intro other same
  cases same
  exact valid

theorem ensures_error {holds : α → Prop} (error : QueryError) : Ensures (.error error) holds :=
  fun _ failed => nomatch failed

theorem ensures_true (result : Except QueryError α) : Ensures result fun _ => True :=
  fun _ _ => trivial

theorem ensures_self (result : Except QueryError α) :
    Ensures result fun value => result = .ok value :=
  fun _ same => same

theorem Ensures.imp {result : Except QueryError α} {holds after : α → Prop}
    (ensures : Ensures result holds) (weaker : ∀ value, holds value → after value) :
    Ensures result after :=
  fun value same => weaker value (ensures value same)

theorem Ensures.bind {result : Except QueryError α} {next : α → Except QueryError β}
    {holds : α → Prop} {after : β → Prop} (ensures : Ensures result holds)
    (continues : ∀ value, holds value → Ensures (next value) after) :
    Ensures (result >>= next) after := by
  cases result with
  | error error => exact ensures_error error
  | ok value => exact continues value (ensures value rfl)

theorem Ensures.map {result : Except QueryError α} {transform : α → β} {holds : α → Prop}
    {after : β → Prop} (ensures : Ensures result holds)
    (maps : ∀ value, holds value → after (transform value)) :
    Ensures (result.map transform) after := by
  cases result with
  | error error => exact ensures_error error
  | ok value => exact ensures_ok (maps value (ensures value rfl))

theorem ensures_mapM {compile : α → Except QueryError β} {holds : β → Prop} {parts : List α}
    (ensures : ∀ part ∈ parts, Ensures (compile part) holds) :
    Ensures (parts.mapM compile) fun compiled => ∀ value ∈ compiled, holds value := by
  induction parts with
  | nil => exact ensures_ok fun _ member => nomatch member
  | cons part parts induction =>
      have both := List.forall_mem_cons.mp ensures
      rw [List.mapM_cons]
      refine both.1.bind fun value first => (induction both.2).bind ?_
      intro values rest
      exact ensures_ok (List.forall_mem_cons.mpr ⟨first, rest⟩)

theorem ensures_foldlM {step : β → α → Except QueryError β} {holds : β → Prop} {parts : List α}
    (kept : ∀ part ∈ parts, ∀ value, holds value → Ensures (step value part) holds)
    (first : holds start) : Ensures (parts.foldlM step start) holds := by
  induction parts generalizing start with
  | nil => exact ensures_ok first
  | cons part parts induction =>
      have both := List.forall_mem_cons.mp kept
      rw [List.foldlM_cons]
      exact (both.1 start first).bind fun _ => induction both.2

theorem foldlM_of_steps {wrap : σ → τ} {next : σ → α → σ} {step : τ → α → Except QueryError τ}
    {parts : List α}
    (steps : ∀ part ∈ parts, ∀ state, step (wrap state) part = .ok (wrap (next state part)))
    (state : σ) : parts.foldlM step (wrap state) = .ok (wrap (parts.foldl next state)) := by
  induction parts generalizing state with
  | nil => rfl
  | cons part parts induction =>
      have both := List.forall_mem_cons.mp steps
      rw [List.foldlM_cons, both.1 state]
      exact induction both.2 (next state part)

theorem ensures_pair {α β : Type} {first : Except QueryError α} {second : Except QueryError β}
    {holds : α → Prop} {after : β → Prop} (ensures : Ensures first holds)
    (ensuresSecond : Ensures second after) :
    Ensures (do .ok (← first, ← second)) fun pair => holds pair.1 ∧ after pair.2 :=
  ensures.bind fun _ valid => ensuresSecond.bind fun _ validSecond =>
    ensures_ok ⟨valid, validSecond⟩

theorem exists_of_map_ok {result : Except QueryError α} {transform : α → β} {value : β}
    (maps : result.map transform = .ok value) :
    ∃ first, result = .ok first ∧ transform first = value := by
  cases result with
  | error error => cases maps
  | ok first => exact ⟨first, rfl, Except.ok.inj maps⟩

theorem eq_error_of_map {result : Except QueryError α} {transform : α → β} {error : QueryError}
    (maps : result.map transform = .error error) : result = .error error := by
  cases result with
  | error other => exact congrArg Except.error (Except.error.inj maps)
  | ok first => cases maps

theorem forall₂_of_mapM_ok {compile : α → Except QueryError β} {parts : List α} {compiled : List β}
    (succeeds : parts.mapM compile = .ok compiled) :
    List.Forall₂ (fun part value => compile part = .ok value) parts compiled := by
  induction parts generalizing compiled with
  | nil =>
      cases succeeds
      exact .nil
  | cons part parts induction =>
      rw [List.mapM_cons] at succeeds
      cases first : compile part with
      | error error =>
          rw [first] at succeeds
          cases succeeds
      | ok value =>
          cases rest : parts.mapM compile with
          | error error =>
              rw [first, rest] at succeeds
              cases succeeds
          | ok values =>
              rw [first, rest] at succeeds
              cases succeeds
              exact .cons first (induction rest)

theorem mapM_ok_of_forall₂ {compile : α → Except QueryError β} {parts : List α} {compiled : List β}
    (succeeds : List.Forall₂ (fun part value => compile part = .ok value) parts compiled) :
    parts.mapM compile = .ok compiled := by
  induction succeeds with
  | nil => rfl
  | cons first _ induction =>
      rw [List.mapM_cons, first, induction]
      rfl

theorem exists_mapM_of_forall₂ {compile : α → Except QueryError β} {relation : β → γ → Prop}
    {parts : List α} {others : List γ}
    (each : List.Forall₂ (fun part other => ∃ value, compile part = .ok value ∧
      relation value other) parts others) :
    ∃ values, parts.mapM compile = .ok values ∧ List.Forall₂ relation values others := by
  induction each with
  | nil => exact ⟨[], rfl, .nil⟩
  | cons first _ induction =>
      obtain ⟨value, compiled, related⟩ := first
      obtain ⟨values, rest, all⟩ := induction
      exact ⟨value :: values, by rw [List.mapM_cons, compiled, rest]; rfl, .cons related all⟩

theorem exists_mem_of_forall₂ {relation : α → β → Prop} {parts : List α} {others : List β}
    (each : List.Forall₂ relation parts others) {part : α} (member : part ∈ parts) :
    ∃ other ∈ others, relation part other := by
  induction each with
  | nil => cases member
  | cons first _ induction =>
      rcases List.mem_cons.mp member with rfl | later
      · exact ⟨_, List.mem_cons_self, first⟩
      · rcases induction later with ⟨other, among, related⟩
        exact ⟨other, List.mem_cons_of_mem _ among, related⟩

theorem ensures_mapM_length {compile : α → Except QueryError β} {parts : List α} :
    Ensures (parts.mapM compile) fun compiled => compiled.length = parts.length :=
  fun _ succeeds => (forall₂_of_mapM_ok succeeds).length_eq.symm

/-! The errors that a result can be. -/

variable {allowed : QueryError → Prop}

def FailsOnly (allowed : QueryError → Prop) (result : Except QueryError α) : Prop :=
  ∀ error, result = .error error → allowed error

theorem failsOnly_ok (value : α) : FailsOnly allowed (.ok value) :=
  fun _ failed => nomatch failed

theorem failsOnly_error (holds : allowed error) :
    FailsOnly allowed (.error error : Except QueryError α) :=
  fun _ failed => Except.error.inj failed ▸ holds

theorem FailsOnly.of_error (fails : FailsOnly allowed (.error error : Except QueryError α)) :
    allowed error :=
  fails error rfl

theorem FailsOnly.map {result : Except QueryError α} (fails : FailsOnly allowed result)
    (transform : α → β) : FailsOnly allowed (result.map transform) := by
  cases result with
  | ok value => exact failsOnly_ok _
  | error error => exact failsOnly_error fails.of_error

theorem FailsOnly.bind {result : Except QueryError α} {next : α → Except QueryError β}
    (fails : FailsOnly allowed result) (continues : ∀ value, FailsOnly allowed (next value)) :
    FailsOnly allowed (result >>= next) := by
  cases result with
  | ok value => exact continues value
  | error error => exact failsOnly_error fails.of_error

theorem FailsOnly.mono {others : QueryError → Prop} {result : Except QueryError α}
    (fails : FailsOnly allowed result) (weaker : ∀ error, allowed error → others error) :
    FailsOnly others result :=
  fun error failed => weaker error (fails error failed)

end StreamQuery
