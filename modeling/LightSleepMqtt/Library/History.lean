import LightSleepMqtt.Library.Transition

/-! Observers of runs. `walk` notes the labels of the states a run passes: when each step keeps
the label or moves along a relation, the labels make up a walk in it. `tally` counts two kinds of
steps, and a potential that pays for the first kind out of the second bounds one count by the
other. Two observers side by side are `paired`. Where a step of one machine is a list of steps of
another, `batched` passes the notes of an observer of the other through. For a machine with outputs,
`Allowed` are the runs of a relation that says what may be answered, and `Admits` tells which runs
come to their end. -/
namespace Transition
set_option autoImplicit false

variable {σ α : Type} {step : σ → α → Option σ}

theorem Always.mono {Q Q' : σ → Prop} {s : σ} {as : List α} (h : Always step Q s as) (himp : ∀ {s}, Q s → Q' s) :
    Always step Q' s as := by
  induction as generalizing s with
  | nil => exact himp h
  | cons a as ih => exact ⟨himp h.1, fun s' ha => ih (h.2 s' ha)⟩

theorem Meets.mono {P P' : σ → α → Prop} {s : σ} {as : List α} (h : Meets step P s as)
    (himp : ∀ s a, P s a → P' s a) : Meets step P' s as := by
  induction as generalizing s with
  | nil => trivial
  | cons a as ih => exact fun s' ha => ⟨himp s a (h s' ha).1, ih (h s' ha).2⟩

theorem Meets.and {P P' : σ → α → Prop} {s : σ} {as : List α} (h : Meets step P s as) (h' : Meets step P' s as) :
    Meets step (fun s a => P s a ∧ P' s a) s as := by
  induction as generalizing s with
  | nil => trivial
  | cons a as ih => exact fun s' ha => ⟨⟨(h s' ha).1, (h' s' ha).1⟩, ih (h s' ha).2 (h' s' ha).2⟩

theorem Meets.of_mem {P : α → Prop} {as : List α} (h : ∀ a ∈ as, P a) (s : σ) : Meets step (fun _ a => P a) s as := by
  induction as generalizing s with
  | nil => trivial
  | cons a as ih =>
    obtain ⟨ha, has⟩ := List.forall_mem_cons.mp h
    exact fun s' _ => ⟨ha, ih has s'⟩

/-- An observer does not matter to a condition on the machine. -/
theorem Meets.beside {P : σ → α → Prop} {s : σ} {as : List α} (h : Meets step P s as) {γ : Type}
    (observe : γ → σ → α → σ → γ) (g : γ) : Meets (observed step observe) (fun x a => P x.1 a) (s, g) as := by
  induction as generalizing s g with
  | nil => trivial
  | cons a as ih =>
    intro x ha
    obtain ⟨hmachine, _⟩ := observed_some ha
    obtain ⟨s', g'⟩ := x
    exact ⟨(h s' hmachine).1, ih (h s' hmachine).2 g'⟩

/-! ## Walks -/

section
variable {κ : Type} (label : σ → κ)

/-- The labels visited, the last one in front: from `first` to the one of the state they follow each
other as `R` allows. -/
structure Walked (R : κ → κ → Prop) (first : κ) (x : σ × List κ) : Prop where
  here : x.2.head? = some (label x.1)
  chain : x.2.IsChain fun c before => R before c
  first : x.2.getLast? = some first

variable {label} {R : κ → κ → Prop} {first : κ}

/-- What the relation keeps holds of every label visited. -/
theorem Walked.forall {x : σ × List κ} (h : Walked label R first x) {P : κ → Prop} (hfirst : P first)
    (hR : ∀ {c c'}, R c c' → P c → P c') : ∀ c ∈ x.2, P c := by
  obtain ⟨_, hchain, hlast⟩ := h
  revert hchain hlast
  generalize x.2 = visited
  intro hchain hlast
  induction visited with
  | nil => simp
  | cons c rest ih =>
    cases rest with
    | nil =>
      obtain rfl := Option.some.inj hlast
      simpa using hfirst
    | cons before rest =>
      rw [List.getLast?_cons_cons] at hlast
      obtain ⟨hmove, hchain⟩ := List.isChain_cons_cons.mp hchain
      have hrest := ih hchain hlast
      exact List.forall_mem_cons.mpr ⟨hR hmove (hrest before (List.mem_cons_self ..)), hrest⟩

variable [DecidableEq κ]

/-- Note the label a step leads to, unless it is the one before. -/
def walk (label : σ → κ) (visited : List κ) (s : σ) (_ : α) (s' : σ) : List κ :=
  if label s' = label s then visited else label s' :: visited

theorem Walked.extend {x : σ × List κ} {a : α} {s' : σ} (h : Walked label R first x)
    (hstep : label s' = label x.1 ∨ R (label x.1) (label s')) :
    Walked label R first (s', walk label x.2 x.1 a s') := by
  unfold walk
  split
  · rename_i hsame
    exact ⟨h.here.trans (congrArg some hsame.symm), h.chain, h.first⟩
  · rename_i hmoved
    obtain ⟨rest, hrest⟩ := List.head?_eq_some_iff.mp h.here
    refine ⟨rfl, ?_, ?_⟩
    · simp only [hrest, List.isChain_cons_cons]
      exact ⟨hstep.resolve_left hmoved, hrest ▸ h.chain⟩
    · have hfirst := h.first
      rw [hrest] at hfirst ⊢
      rw [List.getLast?_cons_cons]
      exact hfirst

/-- **The rule for walks.** -/
theorem always_walked (I : σ → Prop) (hinv : ∀ {s a s'}, I s → step s a = some s' → I s')
    (hstep : ∀ {s a s'}, I s → step s a = some s' → label s' = label s ∨ R (label s) (label s')) {s : σ} (hs : I s)
    (as : List α) : Always (observed step (walk label)) (Walked label R (label s)) (s, [label s]) as := by
  refine always_of_invariant (I := fun x => I x.1 ∧ Walked label R (label s) x) ?_ And.right
    ⟨hs, rfl, List.IsChain.singleton _, rfl⟩
  intro x a x' hx hobserved
  obtain ⟨hmachine, hnotes⟩ := observed_some hobserved
  refine ⟨hinv hx.1 hmachine, ?_⟩
  have hextended := hx.2.extend (a := a) (hstep hx.1 hmachine)
  rw [← hnotes] at hextended
  exact hextended

end

/-! ## Counts -/

section
variable (counted paying : σ → α → Bool)

structure Tally where
  counted : ℕ
  paying : ℕ
  deriving DecidableEq

def Tally.zero : Tally := ⟨0, 0⟩

def tally (n : Tally) (s : σ) (a : α) (_ : σ) : Tally :=
  ⟨n.counted + (counted s a).toNat, n.paying + (paying s a).toNat⟩

variable {counted paying}

/-- **The potential method**: a step of the first kind costs `cost`, one of the second kind pays 1, and
what has been paid in advance is the potential of the state. -/
theorem always_tally (I : σ → Prop) (potential : σ → ℕ) (cost : ℕ)
    (hinv : ∀ {s a s'}, I s → step s a = some s' → I s')
    (hstep : ∀ {s a s'}, I s → step s a = some s' →
      potential s' + cost * (counted s a).toNat ≤ potential s + (paying s a).toNat) {s : σ} (hs : I s)
    (hnone : potential s = 0) (as : List α) :
    Always (observed step (tally counted paying)) (fun x => cost * x.2.counted + potential x.1 ≤ x.2.paying)
      (s, .zero) as := by
  refine always_of_invariant (I := fun x : σ × Tally => I x.1 ∧ cost * x.2.counted + potential x.1 ≤ x.2.paying) ?_
    And.right ⟨hs, by rw [hnone]; exact Nat.le_refl _⟩
  intro x a x' hx hobserved
  obtain ⟨hmachine, hnotes⟩ := observed_some hobserved
  have hpaid := hstep hx.1 hmachine
  have hbefore := hx.2
  refine ⟨hinv hx.1 hmachine, ?_⟩
  rw [hnotes]
  simp only [tally, Nat.mul_add]
  omega

end

/-! ## Two observers -/

section
variable {γ δ : Type} (observe : γ → σ → α → σ → γ) (observe' : δ → σ → α → σ → δ)

def paired (g : γ × δ) (s : σ) (a : α) (s' : σ) : γ × δ := (observe g.1 s a s', observe' g.2 s a s')

variable {observe observe'}

/-- Each of them sees what it would see alone. -/
theorem observed_paired {x x' : σ × γ × δ} {a : α} (h : observed step (paired observe observe') x a = some x') :
    observed step observe (x.1, x.2.1) a = some (x'.1, x'.2.1) ∧
      observed step observe' (x.1, x.2.2) a = some (x'.1, x'.2.2) := by
  obtain ⟨hstep, hnotes⟩ := observed_some h
  rw [observed, observed, hstep, hnotes]
  exact ⟨rfl, rfl⟩

end

/-! ## Batches -/

section
variable {τ β γ : Type} (fine : σ → α → Option σ) (view : τ → σ) (parts : τ → β → List α)

/-- What an observer of the parts makes of a step. -/
def batched (observe : γ → σ → α → σ → γ) (g : γ) (t : τ) (b : β) (_ : τ) : γ :=
  ((run (observed fine observe) (view t, g) (parts t b)).map Prod.snd).getD g

variable {fine view parts} {coarse : τ → β → Option τ} {observe : γ → σ → α → σ → γ}

theorem run_append (step : σ → α → Option σ) (s : σ) (as bs : List α) :
    run step s (as ++ bs) = (run step s as).bind fun t => run step t bs := by
  induction as generalizing s with
  | nil => rfl
  | cons a as ih =>
    rw [List.cons_append, run, run]
    cases step s a with
    | none => rfl
    | some t => exact ih t

/-- The invariant rule for actions with a property. -/
theorem run_invariant_mem {P : α → Prop} {I : σ → Prop} (hstep : ∀ {s a s'}, I s → P a → step s a = some s' → I s')
    {s s' : σ} {as : List α} (hP : ∀ a ∈ as, P a) (hs : I s) (h : run step s as = some s') : I s' := by
  induction as generalizing s with
  | nil => exact Option.some.inj h ▸ hs
  | cons a as ih =>
    obtain ⟨t, ha, hrest⟩ := run_cons h
    obtain ⟨hPa, hPas⟩ := List.forall_mem_cons.mp hP
    exact ih hPas (hstep hs hPa ha) hrest

/-- **The rule for batches**: what the parts of a step keep, the step keeps. -/
theorem batched_invariant {P : α → Prop} {I : σ × γ → Prop} {x x' : τ × γ} {b : β}
    (hparts : ∀ t', coarse x.1 b = some t' → run fine (view x.1) (parts x.1 b) = some (view t'))
    (hP : ∀ t', coarse x.1 b = some t' → ∀ a ∈ parts x.1 b, P a)
    (hstep : ∀ {y a y'}, I y → P a → observed fine observe y a = some y' → I y') (hI : I (view x.1, x.2))
    (h : observed coarse (batched fine view parts observe) x b = some x') : I (view x'.1, x'.2) := by
  obtain ⟨hcoarse, hnotes⟩ := observed_some h
  have hrun := hparts _ hcoarse
  rw [← run_observed observe (view x.1) x.2] at hrun
  obtain ⟨y, hy, hview⟩ := Option.map_eq_some_iff.mp hrun
  have hsame : x'.2 = y.2 := by
    rw [hnotes, batched, hy]
    rfl
  rw [← hview, hsame]
  exact run_invariant_mem hstep (hP _ hcoarse) hI hy

end

/-! ## Specifications of what is answered -/

section
variable {τ ο : Type} (allows : τ → α → ο → τ → Prop)

/-- A run that a relation allows, with the answers. -/
inductive Allowed : τ → List α → List ο → τ → Prop where
  | nil (t : τ) : Allowed t [] [] t
  | cons {t t' t'' : τ} {a : α} {as : List α} {o : ο} {os : List ο} :
    allows t a o t' → Allowed t' as os t'' → Allowed t (a :: as) (o :: os) t''

variable {allows} {answering : σ → α → Option (σ × ο)} {view : σ → τ} {I : σ → Prop}

/-- Every action meets the condition in the state before it, also one that is not taken. -/
def Admits (step : σ → α → Option σ) (P : σ → α → Prop) : σ → List α → Prop
  | _, [] => True
  | s, a :: as => P s a ∧ ∀ s', step s a = some s' → Admits step P s' as

/-- A run comes to its end when, and only when, each action meets the condition for its step. -/
theorem react_isSome_iff {P : σ → α → Prop} (hP : ∀ s a, (answering s a).isSome ↔ P s a) (s : σ) (as : List α) :
    (react answering s as).isSome ↔ Admits (fun s a => (answering s a).map Prod.fst) P s as := by
  induction as generalizing s with
  | nil => exact iff_of_true rfl trivial
  | cons a as ih =>
    rw [react, Admits, ← hP]
    cases hstep : answering s a with
    | none => simp
    | some x =>
      rw [Option.bind_some, Option.isSome_map, ih]
      simp

theorem react_cons {s s' : σ} {a : α} {as : List α} {os : List ο} (h : react answering s (a :: as) = some (s', os)) :
    ∃ t o rest, answering s a = some (t, o) ∧ react answering t as = some (s', rest) ∧ os = o :: rest := by
  obtain ⟨⟨t, o⟩, hstep, hrest⟩ := Option.bind_eq_some_iff.mp h
  obtain ⟨⟨u, rest⟩, hreact, heq⟩ := Option.map_eq_some_iff.mp hrest
  obtain ⟨rfl, rfl⟩ := Prod.mk.inj heq
  exact ⟨t, o, rest, hstep, hreact, rfl⟩

/-- **The refinement rule**: a machine whose every step the relation allows, seen through `view`, is allowed
every run. -/
theorem react_allowed
    (hstep : ∀ {s a s' o}, I s → answering s a = some (s', o) → I s' ∧ allows (view s) a o (view s')) {s s' : σ}
    {as : List α} {os : List ο} (hs : I s) (h : react answering s as = some (s', os)) :
    I s' ∧ Allowed allows (view s) as os (view s') := by
  induction as generalizing s os with
  | nil =>
    obtain ⟨rfl, rfl⟩ := Prod.mk.inj (Option.some.inj h)
    exact ⟨hs, .nil _⟩
  | cons a as ih =>
    obtain ⟨t, o, rest, hfirst, hrest, rfl⟩ := react_cons h
    obtain ⟨ht, hallowed⟩ := hstep hs hfirst
    obtain ⟨hs', hrun⟩ := ih ht hrest
    exact ⟨hs', .cons hallowed hrun⟩

/-- The invariant rule for answers, where the actions meet a condition. -/
theorem react_invariant {P : σ → α → Prop} {Q : ο → Prop}
    (hstep : ∀ {s a s' o}, I s → P s a → answering s a = some (s', o) → I s' ∧ Q o) {s s' : σ} {as : List α}
    {os : List ο} (hs : I s) (hmeets : Meets (fun s a => (answering s a).map Prod.fst) P s as)
    (h : react answering s as = some (s', os)) : I s' ∧ ∀ o ∈ os, Q o := by
  induction as generalizing s os with
  | nil =>
    obtain ⟨rfl, rfl⟩ := Prod.mk.inj (Option.some.inj h)
    exact ⟨hs, by simp⟩
  | cons a as ih =>
    obtain ⟨t, o, rest, hfirst, hrest, rfl⟩ := react_cons h
    obtain ⟨hP, hmeets⟩ := hmeets t (congrArg (Option.map Prod.fst) hfirst)
    obtain ⟨ht, ho⟩ := hstep hs hP hfirst
    obtain ⟨hs', hos⟩ := ih ht hmeets hrest
    exact ⟨hs', List.forall_mem_cons.mpr ⟨ho, hos⟩⟩

end

end Transition
