import Mathlib.Data.List.Basic

/-! A store of one value that survives power failures. A save may be cut anywhere, in a way `κ`
describes. `Admits` says what the loads of a crash-safe store may answer: a completed save is
what the next load sees, a cut one has happened or has not, and a load changes nothing.
`admits_loads` reduces it to what each operation does to the value a state holds. -/
namespace CrashStore
set_option autoImplicit false

variable {σ α κ : Type}

inductive Call (α κ : Type) where
  /-- A save, with the place of the power failure that cuts it, if one does. -/
  | save (a : α) (cut : Option κ)
  | load

/-- A save, what a failure leaves of it, and a load with its answer. -/
structure Store (σ α κ : Type) where
  save : α → σ → σ
  interrupted : α → κ → σ → σ
  load : σ → α × σ

/-- The answers of the loads among the calls, in their order. -/
def Store.loads (store : Store σ α κ) : σ → List (Call α κ) → List α
  | _, [] => []
  | s, .save a none :: calls => store.loads (store.save a s) calls
  | s, .save a (some k) :: calls => store.loads (store.interrupted a k s) calls
  | s, .load :: calls => (store.load s).1 :: store.loads (store.load s).2 calls

/-- The answers are those of a crash-safe store that holds `v`. -/
def Admits : α → List (Call α κ) → List α → Prop
  | _, [], answers => answers = []
  | _, .save a none :: calls, answers => Admits a calls answers
  | v, .save a (some _) :: calls, answers => Admits v calls answers ∨ Admits a calls answers
  | v, .load :: calls, answers => ∃ later, answers = v :: later ∧ Admits v calls later

/-- The values the calls save. -/
def saved : List (Call α κ) → List α
  | [] => []
  | .save a _ :: calls => a :: saved calls
  | .load :: calls => saved calls

/-- What it takes for states that hold a value to make up a crash-safe store of the values `Valid`. -/
structure Safe (store : Store σ α κ) (Valid : α → Prop) (Holds : σ → α → Prop) : Prop where
  save : ∀ {s v a}, Holds s v → Valid a → Holds (store.save a s) a
  interrupted : ∀ {s v a} k, Holds s v → Valid a →
    Holds (store.interrupted a k s) v ∨ Holds (store.interrupted a k s) a
  load : ∀ {s v}, Holds s v → (store.load s).1 = v ∧ Holds (store.load s).2 v

/-- **The crash safety rule.** -/
theorem Safe.admits_loads {store : Store σ α κ} {Valid : α → Prop} {Holds : σ → α → Prop}
    (safe : Safe store Valid Holds) {calls : List (Call α κ)} {s : σ} {v : α} (hv : Holds s v)
    (hvalid : ∀ a ∈ saved calls, Valid a) : Admits v calls (store.loads s calls) := by
  induction calls generalizing s v with
  | nil => rfl
  | cons call calls ih =>
    match call with
    | .load =>
      obtain ⟨hanswer, hafter⟩ := safe.load hv
      exact ⟨_, congrArg (· :: _) hanswer, ih hafter hvalid⟩
    | .save a none =>
      obtain ⟨ha, hrest⟩ := List.forall_mem_cons.mp hvalid
      exact ih (safe.save hv ha) hrest
    | .save a (some k) =>
      obtain ⟨ha, hrest⟩ := List.forall_mem_cons.mp hvalid
      obtain hold | hnew := safe.interrupted k hv ha
      · exact .inl (ih hold hrest)
      · exact .inr (ih hnew hrest)

end CrashStore
