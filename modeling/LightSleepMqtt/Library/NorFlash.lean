import Mathlib.Data.List.Basic

/-! Flash memory in sectors of `size` bytes. Erasing sets every bit of a sector and writing can
only clear bits, so a sector is changed by erasing it and writing it afresh. A power failure ends
a list of operations at one of them and leaves that operation's sector with arbitrary contents.
`Confined` is the frame condition the rules are stated with: only one sector differs. -/
namespace NorFlash
set_option autoImplicit false

/-- The contents, by absolute address. -/
abbrev Memory := ℕ → UInt8

def read (m : Memory) (addr len : ℕ) : List UInt8 := (List.range len).map fun i => m (addr + i)

@[simp] theorem length_read (m : Memory) (addr len : ℕ) : (read m addr len).length = len := by
  rw [read, List.length_map, List.length_range]

theorem getElem_read (m : Memory) (addr len i : ℕ) (hi : i < (read m addr len).length) :
    (read m addr len)[i] = m (addr + i) := by
  simp [read]

theorem read_congr {m m' : Memory} {addr len : ℕ} (h : ∀ i < len, m' (addr + i) = m (addr + i)) :
    read m' addr len = read m addr len := by
  apply List.map_congr_left
  intro i hi
  exact h i (List.mem_range.mp hi)

variable (size : ℕ)

def erase (m : Memory) (sector : ℕ) : Memory := fun a => if a / size = sector then 255 else m a

def write (m : Memory) (addr : ℕ) (bytes : List UInt8) : Memory := fun a =>
  if addr ≤ a then (bytes[a - addr]?).elim (m a) (m a &&& ·) else m a

/-- Arbitrary contents for one sector. -/
def damage (m : Memory) (sector : ℕ) (garbage : Memory) : Memory := fun a =>
  if a / size = sector then garbage a else m a

inductive Op where
  | erase (sector : ℕ)
  | write (addr : ℕ) (bytes : List UInt8)

def Op.sector : Op → ℕ
  | .erase k => k
  | .write addr _ => addr / size

def Op.exec : Op → Memory → Memory
  | .erase k, m => NorFlash.erase size m k
  | .write addr bytes, m => NorFlash.write m addr bytes

/-- All operations in turn. -/
def exec : List Op → Memory → Memory
  | [], m => m
  | op :: ops, m => exec ops (op.exec size m)

/-- The operations up to a power failure in number `i`, counted from 0; none if there are fewer. -/
def cut (garbage : Memory) : List Op → ℕ → Memory → Memory
  | [], _, m => m
  | op :: _, 0, m => damage size m (op.sector size) garbage
  | op :: ops, i + 1, m => cut garbage ops i (op.exec size m)

variable {size} {m m' : Memory}

theorem exec_append (ops rest : List Op) (m : Memory) :
    exec size (ops ++ rest) m = exec size rest (exec size ops m) := by
  induction ops generalizing m with
  | nil => rfl
  | cons op ops ih => exact ih _

/-! ## What stays as it is -/

/-- The memories differ in the one sector only. -/
def Confined (size sector : ℕ) (m m' : Memory) : Prop := ∀ a, a / size ≠ sector → m' a = m a

theorem Confined.trans {k : ℕ} {m'' : Memory} (h : Confined size k m m') (h' : Confined size k m' m'') :
    Confined size k m m'' := fun a ha => (h' a ha).trans (h a ha)

theorem erase_confined (m : Memory) (k : ℕ) : Confined size k m (erase size m k) := fun _ ha => if_neg ha

theorem damage_confined (m : Memory) (k : ℕ) (garbage : Memory) :
    Confined size k m (damage size m k garbage) := fun _ ha => if_neg ha

theorem sector_offset {k i : ℕ} (hi : i < size) : (k * size + i) / size = k := by
  rw [Nat.add_comm, Nat.add_mul_div_right i k (by omega), Nat.div_eq_of_lt hi, Nat.zero_add]

theorem write_confined (m : Memory) {k : ℕ} {bytes : List UInt8} (hfit : bytes.length ≤ size) :
    Confined size k m (write m (k * size) bytes) := by
  intro a ha
  unfold write
  split
  case isFalse => rfl
  case isTrue hle =>
    have hlen : bytes.length ≤ a - k * size := by
      by_contra hlt
      refine ha ?_
      rw [show a = k * size + (a - k * size) by omega]
      exact sector_offset (by omega)
    rw [List.getElem?_eq_none hlen, Option.elim_none]

theorem read_confined {j k len : ℕ} (h : Confined size k m m') (hjk : j ≠ k) (hlen : len ≤ size) :
    read m' (j * size) len = read m (j * size) len := by
  apply read_congr
  intro i hi
  apply h
  rw [sector_offset (by omega)]
  exact hjk

/-! ## Rewriting a sector -/

/-- A sector erased and written from its start. -/
def rewrite (size k : ℕ) (bytes : List UInt8) : List Op := [.erase k, .write (k * size) bytes]

theorem exec_rewrite_confined (m : Memory) {k : ℕ} {bytes : List UInt8} (hfit : bytes.length ≤ size) :
    Confined size k m (exec size (rewrite size k bytes) m) :=
  (erase_confined m k).trans (write_confined _ hfit)

/-- A rewritten sector reads as written, whatever it held before. -/
theorem read_rewrite (m : Memory) (k : ℕ) {bytes : List UInt8} (hfit : bytes.length ≤ size) :
    read (exec size (rewrite size k bytes) m) (k * size) bytes.length = bytes := by
  apply List.ext_getElem (length_read _ _ _)
  intro i _ hi
  have herased : erase size m k (k * size + i) = 255 := if_pos (sector_offset (by omega))
  have hwritten : write (erase size m k) (k * size) bytes (k * size + i) = 255 &&& bytes[i] := by
    rw [write, if_pos (Nat.le_add_right _ _), Nat.add_sub_cancel_left, List.getElem?_eq_getElem hi,
      Option.elim_some, herased]
  rw [getElem_read]
  exact hwritten.trans UInt8.neg_one_and

/-- A failure while a sector is rewritten is confined to it; one behind it finds it rewritten. -/
theorem cut_rewrite (m garbage : Memory) (k : ℕ) (bytes : List UInt8) (hpos : 0 < size) (rest : List Op)
    (i : ℕ) :
    Confined size k m (cut size garbage (rewrite size k bytes ++ rest) i m) ∨
      ∃ j, cut size garbage (rewrite size k bytes ++ rest) i m =
        cut size garbage rest j (exec size (rewrite size k bytes) m) := by
  match i with
  | 0 => exact .inl (damage_confined m k garbage)
  | 1 =>
    left
    have hsector : (Op.write (k * size) bytes).sector size = k := Nat.mul_div_cancel k hpos
    have hdamage : Confined size k (erase size m k) (damage size (erase size m k) k garbage) :=
      damage_confined _ k garbage
    rw [rewrite, List.cons_append, cut, List.cons_append, cut, hsector]
    exact (erase_confined m k).trans hdamage
  | j + 2 => exact .inr ⟨j, rfl⟩

theorem cut_rewrite_confined (m garbage : Memory) {k : ℕ} {bytes : List UInt8} (hpos : 0 < size)
    (hfit : bytes.length ≤ size) (i : ℕ) : Confined size k m (cut size garbage (rewrite size k bytes) i m) := by
  have hcut := cut_rewrite m garbage k bytes hpos [] i
  rw [List.append_nil] at hcut
  obtain hwithin | ⟨j, hbehind⟩ := hcut
  · exact hwithin
  · rw [hbehind]
    exact exec_rewrite_confined m hfit

/-! ## Lists of operations -/

/-- The operation stays within its sector. -/
def Op.Fits (size : ℕ) : Op → Prop
  | .erase _ => True
  | .write addr bytes => addr % size + bytes.length ≤ size

theorem Op.exec_confined {op : Op} (h : op.Fits size) (m : Memory) : Confined size (op.sector size) m (op.exec size m) := by
  cases op with
  | erase k => exact erase_confined m k
  | write addr bytes =>
    have hfit : addr % size + bytes.length ≤ size := h
    intro a ha
    have hne : a / size ≠ addr / size := ha
    show NorFlash.write m addr bytes a = m a
    unfold NorFlash.write
    split
    · rename_i hle
      have hlen : bytes.length ≤ a - addr := by
        by_contra hlt
        refine hne ?_
        have hdiv := Nat.div_add_mod addr size
        rw [show a = addr / size * size + (a - addr / size * size) by rw [Nat.mul_comm]; omega]
        exact sector_offset (by rw [Nat.mul_comm]; omega)
      rw [List.getElem?_eq_none hlen, Option.elim_none]
    · rfl

theorem exec_outside {ops : List Op} (hfit : ∀ op ∈ ops, op.Fits size) {a : ℕ}
    (ha : ∀ op ∈ ops, a / size ≠ op.sector size) (m : Memory) : exec size ops m a = m a := by
  induction ops generalizing m with
  | nil => rfl
  | cons op ops ih =>
    obtain ⟨hop, hops⟩ := List.forall_mem_cons.mp hfit
    obtain ⟨hne, hothers⟩ := List.forall_mem_cons.mp ha
    exact (ih hops hothers _).trans (op.exec_confined hop m a hne)

theorem cut_outside {ops : List Op} (hfit : ∀ op ∈ ops, op.Fits size) {a : ℕ}
    (ha : ∀ op ∈ ops, a / size ≠ op.sector size) (garbage : Memory) (i : ℕ) (m : Memory) :
    cut size garbage ops i m a = m a := by
  induction ops generalizing i m with
  | nil => rfl
  | cons op ops ih =>
    obtain ⟨hop, hops⟩ := List.forall_mem_cons.mp hfit
    obtain ⟨hne, hothers⟩ := List.forall_mem_cons.mp ha
    cases i with
    | zero => exact damage_confined m _ garbage a hne
    | succ i => exact (ih hops hothers i _).trans (op.exec_confined hop m a hne)

end NorFlash
