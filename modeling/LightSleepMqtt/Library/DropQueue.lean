import Mathlib.Data.List.Sublists

/-! A first-in first-out queue that may drop what has waited longest, over arbitrary items: its
history of accepted and taken items and what is waiting. Whatever is dropped and whenever, the
items taken are accepted ones, in order and each at most once, and with a note of the items
dropped every accepted item is accounted for. -/
namespace DropQueue
set_option autoImplicit false

structure Log (α : Type) where
  accepted : List α
  waiting : List α
  taken : List α

variable {α : Type}

def Log.empty : Log α := ⟨[], [], []⟩

/-- One operation; the items it accepts have the property `P`. -/
inductive Moves (P : α → Prop) (l : Log α) : Log α → Prop
  | kept : Moves P l l
  | accept (k : ℕ) (a : α) (ha : P a) : Moves P l ⟨l.accepted ++ [a], l.waiting.drop k ++ [a], l.taken⟩
  | drop (k : ℕ) : Moves P l ⟨l.accepted, l.waiting.drop k, l.taken⟩
  | take (a : α) (rest : List α) (h : l.waiting = a :: rest) : Moves P l ⟨l.accepted, rest, l.taken ++ [a]⟩

variable {P : α → Prop} {l l' : Log α}

theorem Moves.mono {P' : α → Prop} (h : Moves P l l') (himp : ∀ a, P a → P' a) : Moves P' l l' := by
  cases h with
  | kept => exact .kept
  | accept k a ha => exact .accept k a (himp a ha)
  | drop k => exact .drop k
  | take a rest h => exact .take a rest h

theorem Moves.forall_waiting (h : Moves P l l') (hl : ∀ a ∈ l.waiting, P a) : ∀ a ∈ l'.waiting, P a := by
  cases h with
  | kept => exact hl
  | accept k a ha =>
    intro b hb
    obtain hin | hin := List.mem_append.mp hb
    · exact hl b (List.mem_of_mem_drop hin)
    · exact List.mem_singleton.mp hin ▸ ha
  | drop k => exact fun b hb => hl b (List.mem_of_mem_drop hb)
  | take a rest h => exact fun b hb => hl b (h ▸ List.mem_cons_of_mem a hb)

/-- What is waiting are the last items accepted, and what was taken was accepted before them. -/
def Log.InOrder (l : Log α) : Prop := ∃ gone, l.accepted = gone ++ l.waiting ∧ l.taken.Sublist gone

theorem Log.empty_inOrder : (Log.empty : Log α).InOrder := ⟨[], rfl, List.Sublist.slnil⟩

theorem Moves.inOrder (h : Moves P l l') (hl : l.InOrder) : l'.InOrder := by
  obtain ⟨gone, haccepted, htaken⟩ := hl
  cases h with
  | kept => exact ⟨gone, haccepted, htaken⟩
  | accept k a ha =>
    refine ⟨gone ++ l.waiting.take k, ?_, htaken.trans (List.sublist_append_left _ _)⟩
    show l.accepted ++ [a] = gone ++ l.waiting.take k ++ (l.waiting.drop k ++ [a])
    rw [← List.append_assoc, List.append_assoc gone, List.take_append_drop, haccepted]
  | drop k =>
    refine ⟨gone ++ l.waiting.take k, ?_, htaken.trans (List.sublist_append_left _ _)⟩
    show l.accepted = gone ++ l.waiting.take k ++ l.waiting.drop k
    rw [List.append_assoc, List.take_append_drop, haccepted]
  | take a rest h =>
    refine ⟨gone ++ [a], ?_, htaken.append (List.Sublist.refl _)⟩
    show l.accepted = gone ++ [a] ++ rest
    rw [haccepted, h, List.append_assoc, List.singleton_append]

theorem Log.InOrder.taken_sublist (h : l.InOrder) : l.taken.Sublist l.accepted := by
  obtain ⟨gone, haccepted, htaken⟩ := h
  rw [haccepted]
  exact htaken.trans (List.sublist_append_left _ _)

theorem Moves.mono_waiting {P' : α → Prop} (h : Moves P l l') (himp : ∀ a ∈ l'.waiting, P a → P' a) : Moves P' l l' := by
  cases h with
  | kept => exact .kept
  | accept k a ha => exact .accept k a (himp a (List.mem_append_right _ (List.mem_singleton_self a)) ha)
  | drop k => exact .drop k
  | take a rest h => exact .take a rest h

/-- What is read off the accepted items grows by what is read off the new one. -/
theorem Moves.filterMap {β : Type} (h : Moves P l l') (f : α → Option β) :
    ∃ value : Option β, (∀ v, value = some v → ∃ a, P a ∧ f a = some v) ∧
      l'.accepted.filterMap f = l.accepted.filterMap f ++ value.toList := by
  have hnothing : ∃ value : Option β, (∀ v, value = some v → ∃ a, P a ∧ f a = some v) ∧
      l.accepted.filterMap f = l.accepted.filterMap f ++ value.toList := ⟨none, by simp, (List.append_nil _).symm⟩
  cases h with
  | kept => exact hnothing
  | accept k a ha =>
    refine ⟨f a, fun v hv => ⟨a, ha, hv⟩, ?_⟩
    rw [List.filterMap_append]
    cases hfa : f a <;> simp [hfa]
  | drop k => exact hnothing
  | take a rest h => exact hnothing

/-! ## The items dropped -/

/-- One operation with the items it drops. -/
inductive Drops (P : α → Prop) (l : Log α) : List α → Log α → Prop
  | kept : Drops P l [] l
  | accept (k : ℕ) (a : α) (ha : P a) :
    Drops P l (l.waiting.take k) ⟨l.accepted ++ [a], l.waiting.drop k ++ [a], l.taken⟩
  | drop (k : ℕ) : Drops P l (l.waiting.take k) ⟨l.accepted, l.waiting.drop k, l.taken⟩
  | take (a : α) (rest : List α) (h : l.waiting = a :: rest) : Drops P l [] ⟨l.accepted, rest, l.taken ++ [a]⟩

variable {dropped gone : List α}

theorem Drops.moves (h : Drops P l dropped l') : Moves P l l' := by
  cases h with
  | kept => exact .kept
  | accept k a ha => exact .accept k a ha
  | drop k => exact .drop k
  | take a rest h => exact .take a rest h

theorem Drops.mono {P' : α → Prop} (h : Drops P l dropped l') (himp : ∀ a, P a → P' a) : Drops P' l dropped l' := by
  cases h with
  | kept => exact .kept
  | accept k a ha => exact .accept k a (himp a ha)
  | drop k => exact .drop k
  | take a rest h => exact .take a rest h

/-- Each item accepted was dropped or taken or is waiting. -/
def Log.Balanced (l : Log α) (gone : List α) : Prop := l.accepted.Perm (gone ++ (l.taken ++ l.waiting))

theorem Log.empty_balanced : (Log.empty : Log α).Balanced [] := List.Perm.refl _

theorem Drops.balanced (h : Drops P l dropped l') (hl : l.Balanced gone) : l'.Balanced (gone ++ dropped) := by
  have hsplit (k : ℕ) : (gone ++ (l.taken ++ l.waiting)).Perm (gone ++ l.waiting.take k ++ (l.taken ++ l.waiting.drop k)) := by
    conv_lhs => rw [← List.take_append_drop k l.waiting]
    rw [List.append_assoc, ← List.append_assoc l.taken]
    refine List.Perm.append_left gone ?_
    rw [← List.append_assoc]
    exact List.perm_append_comm.append_right _
  cases h with
  | kept =>
    rw [List.append_nil]
    exact hl
  | accept k a ha =>
    have happend := (hl.trans (hsplit k)).append_right [a]
    simp only [List.append_assoc] at happend
    unfold Log.Balanced
    simp only [List.append_assoc]
    exact happend
  | drop k => exact hl.trans (hsplit k)
  | take a rest h =>
    unfold Log.Balanced at hl ⊢
    rw [h] at hl
    simp only [List.append_nil, List.append_assoc, List.singleton_append]
    exact hl

end DropQueue
