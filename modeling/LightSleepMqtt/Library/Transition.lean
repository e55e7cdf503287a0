import Mathlib.Data.List.Basic

/-! Runs of a partial step function, over arbitrary states and actions. `run` is the state a
list of actions leads to, `Always` a property of every state on the way, `Meets` a condition
on every step at the state before it. The rules turn facts about one step into facts about
runs. An observer keeps notes beside a machine without interfering with it, so that a property
may speak of what a run has done so far. `react` is the run of a machine with outputs. -/
namespace Transition
set_option autoImplicit false

variable {σ α : Type} (step : σ → α → Option σ)

/-- The state behind a list of actions, if each of them is possible. -/
def run : σ → List α → Option σ
  | s, [] => some s
  | s, a :: as => (step s a).bind fun s' => run s' as

/-- Every state of the run has the property, as far as its actions are possible. -/
def Always (Q : σ → Prop) : σ → List α → Prop
  | s, [] => Q s
  | s, a :: as => Q s ∧ ∀ s', step s a = some s' → Always Q s' as

/-- Every action that is taken meets the condition in the state before it. -/
def Meets (P : σ → α → Prop) : σ → List α → Prop
  | _, [] => True
  | s, a :: as => ∀ s', step s a = some s' → P s a ∧ Meets P s' as

variable {step}

theorem run_cons {s s' : σ} {a : α} {as : List α} (h : run step s (a :: as) = some s') :
    ∃ t, step s a = some t ∧ run step t as = some s' := Option.bind_eq_some_iff.mp h

/-- **The invariant rule.** -/
theorem run_invariant {I : σ → Prop} (hstep : ∀ {s a s'}, I s → step s a = some s' → I s') {s s' : σ}
    {as : List α} (hs : I s) (h : run step s as = some s') : I s' := by
  induction as generalizing s with
  | nil => exact Option.some.inj h ▸ hs
  | cons a as ih =>
    obtain ⟨t, ha, hrest⟩ := run_cons h
    exact ih (hstep hs ha) hrest

theorem Always.start {Q : σ → Prop} {s : σ} {as : List α} (h : Always step Q s as) : Q s := by
  cases as with
  | nil => exact h
  | cons a as => exact h.1

/-- **The rule for a condition on steps**: under an invariant, a property that the actions of a run
keep exactly when they meet the condition holds throughout the run exactly when all of them do. -/
theorem always_iff_meets {I Q : σ → Prop} {P : σ → α → Prop} {as : List α}
    (hinv : ∀ {s a s'}, a ∈ as → I s → step s a = some s' → I s')
    (hstep : ∀ {s a s'}, a ∈ as → I s → Q s → step s a = some s' → (Q s' ↔ P s a)) {s : σ} (hI : I s) (hQ : Q s) :
    Always step Q s as ↔ Meets step P s as := by
  induction as generalizing s with
  | nil => exact iff_of_true hQ trivial
  | cons a as ih =>
    have hmem := List.mem_cons_self (a := a) (l := as)
    have htail {t : σ} (hI : I t) (hQ : Q t) : Always step Q t as ↔ Meets step P t as :=
      ih (fun hin => hinv (List.mem_cons_of_mem a hin)) (fun hin => hstep (List.mem_cons_of_mem a hin)) hI hQ
    constructor
    · intro hmeets s' ha
      obtain ⟨_, hrest⟩ := hmeets
      have hQ' := (hrest s' ha).start
      exact ⟨(hstep hmem hI hQ ha).mp hQ', (htail (hinv hmem hI ha) hQ').mp (hrest s' ha)⟩
    · intro h
      refine ⟨hQ, fun s' ha => ?_⟩
      exact (htail (hinv hmem hI ha) ((hstep hmem hI hQ ha).mpr (h s' ha).1)).mpr (h s' ha).2

/-- The invariant rule for runs whose actions meet a condition. -/
theorem always_of_meets {I Q : σ → Prop} {P : σ → α → Prop}
    (hstep : ∀ {s a s'}, I s → P s a → step s a = some s' → I s') (himp : ∀ {s}, I s → Q s) {s : σ} {as : List α}
    (hI : I s) (h : Meets step P s as) : Always step Q s as := by
  induction as generalizing s with
  | nil => exact himp hI
  | cons a as ih => exact ⟨himp hI, fun s' ha => ih (hstep hI (h s' ha).1 ha) (h s' ha).2⟩

theorem always_of_invariant {I Q : σ → Prop} (hstep : ∀ {s a s'}, I s → step s a = some s' → I s')
    (himp : ∀ {s}, I s → Q s) {s : σ} {as : List α} (hI : I s) : Always step Q s as := by
  induction as generalizing s with
  | nil => exact himp hI
  | cons a as ih => exact ⟨himp hI, fun s' ha => ih (hstep hI ha)⟩

/-! ## Observers -/

variable {γ : Type}

/-- The machine with an observer beside it, which sees each step with the states around it. -/
def observed (step : σ → α → Option σ) (observe : γ → σ → α → σ → γ) (x : σ × γ) (a : α) : Option (σ × γ) :=
  (step x.1 a).map fun s' => (s', observe x.2 x.1 a s')

theorem observed_some {observe : γ → σ → α → σ → γ} {x x' : σ × γ} {a : α}
    (h : observed step observe x a = some x') : step x.1 a = some x'.1 ∧ x'.2 = observe x.2 x.1 a x'.1 := by
  obtain ⟨s', hstep, rfl⟩ := Option.map_eq_some_iff.mp h
  exact ⟨hstep, rfl⟩

/-- What the machine does does not depend on its observer. -/
theorem run_observed (observe : γ → σ → α → σ → γ) (s : σ) (g : γ) (as : List α) :
    (run (observed step observe) (s, g) as).map Prod.fst = run step s as := by
  induction as generalizing s g with
  | nil => rfl
  | cons a as ih =>
    rw [run, run, observed]
    cases step s a with
    | none => rfl
    | some s' => exact ih s' _

/-! ## Outputs -/

variable {ο : Type}

/-- A run of a machine whose steps have outputs. -/
def react (step : σ → α → Option (σ × ο)) : σ → List α → Option (σ × List ο)
  | s, [] => some (s, [])
  | s, a :: as => (step s a).bind fun x => (react step x.1 as).map fun y => (y.1, x.2 :: y.2)

theorem react_cons_iff {step : σ → α → Option (σ × ο)} {s u : σ} {a : α} {as : List α} {o : ο} {os : List ο} :
    react step s (a :: as) = some (u, o :: os) ↔
      ∃ t, step s a = some (t, o) ∧ react step t as = some (u, os) := by
  rw [react]
  constructor
  · intro h
    obtain ⟨⟨t, o'⟩, hstep, hrest⟩ := Option.bind_eq_some_iff.mp h
    obtain ⟨⟨u', os'⟩, hreact, heq⟩ := Option.map_eq_some_iff.mp hrest
    obtain ⟨rfl, hos⟩ := Prod.mk.inj heq
    obtain ⟨rfl, rfl⟩ := List.cons.inj hos
    exact ⟨t, hstep, hreact⟩
  · rintro ⟨t, hstep, hrest⟩
    rw [hstep, Option.bind_some, hrest]
    rfl

theorem react_concat (step : σ → α → Option (σ × ο)) (s : σ) (as : List α) (a : α) :
    react step s (as ++ [a]) =
      (react step s as).bind fun x => (step x.1 a).map fun y => (y.1, x.2 ++ [y.2]) := by
  induction as generalizing s with
  | nil =>
    rw [List.nil_append, react, react, Option.bind_some]
    cases step s a <;> rfl
  | cons b as ih =>
    rw [List.cons_append, react, react]
    cases step s b with
    | none => rfl
    | some x =>
      rw [Option.bind_some, Option.bind_some, ih]
      cases react step x.1 as with
      | none => rfl
      | some y =>
        rw [Option.bind_some, Option.map_some, Option.bind_some]
        cases step y.1 a <;> rfl

theorem react_concat_iff {step : σ → α → Option (σ × ο)} {s u : σ} {as : List α} {a : α} {os : List ο} {o : ο} :
    react step s (as ++ [a]) = some (u, os ++ [o]) ↔
      ∃ t, react step s as = some (t, os) ∧ step t a = some (u, o) := by
  rw [react_concat]
  constructor
  · intro h
    obtain ⟨⟨t, os'⟩, hfront, hlast⟩ := Option.bind_eq_some_iff.mp h
    obtain ⟨⟨u', o'⟩, hstep, heq⟩ := Option.map_eq_some_iff.mp hlast
    obtain ⟨rfl, hos⟩ := Prod.mk.inj heq
    obtain ⟨rfl, ho⟩ := List.append_inj' hos rfl
    obtain rfl := List.singleton_inj.mp ho
    exact ⟨t, hfront, hstep⟩
  · rintro ⟨t, hfront, hlast⟩
    rw [hfront, Option.bind_some, hlast]
    rfl

/-- **The simulation rule**: two machines that answer every action alike in related states, and are
left in related states by it, answer every list of actions alike. -/
theorem react_simulates {σ' : Type} {step : σ → α → Option (σ × ο)} {step' : σ' → α → Option (σ' × ο)}
    {R : σ → σ' → Prop}
    (hstep : ∀ {s t} a, R s t → ∃ s' t' o, step s a = some (s', o) ∧ step' t a = some (t', o) ∧ R s' t')
    {s : σ} {t : σ'} (h : R s t) (as : List α) :
    ∃ s' t' os, react step s as = some (s', os) ∧ react step' t as = some (t', os) ∧ R s' t' := by
  induction as generalizing s t with
  | nil => exact ⟨s, t, [], rfl, rfl, h⟩
  | cons a as ih =>
    obtain ⟨s₁, t₁, o, hs, ht, h₁⟩ := hstep a h
    obtain ⟨s', t', os, hs', ht', h'⟩ := ih h₁
    exact ⟨s', t', o :: os, react_cons_iff.mpr ⟨s₁, hs, hs'⟩, react_cons_iff.mpr ⟨t₁, ht, ht'⟩, h'⟩

/-! ## Running the specifications -/

instance decidableMeets (P : σ → α → Prop) [∀ s a, Decidable (P s a)] :
    (s : σ) → (as : List α) → Decidable (Meets step P s as)
  | _, [] => isTrue trivial
  | s, a :: as =>
    match h : step s a with
    | none => isTrue fun s' hs' => by cases h.symm.trans hs'
    | some t =>
      have := decidableMeets P t as
      decidable_of_iff (P s a ∧ Meets step P t as)
        ⟨fun hP s' hs' => Option.some.inj (h.symm.trans hs') ▸ hP, fun hP => hP t h⟩

end Transition
