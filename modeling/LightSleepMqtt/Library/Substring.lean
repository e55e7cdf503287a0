import Mathlib.Data.List.Basic

/-! The first occurrence of a pattern in a list. What matters of it for input that arrives in
pieces is `find_take`: on the first `p` elements a search finds what it finds on all of them, as
far as that lies within the `p` elements. -/
namespace Substring
set_option autoImplicit false

variable {α : Type} [DecidableEq α]

/-- The index at which the pattern occurs first. -/
def find (pat : List α) : List α → Option ℕ
  | [] => if pat = [] then some 0 else none
  | c :: cs => if pat <+: c :: cs then some 0 else (find pat cs).map (· + 1)

variable {pat s : List α} {i : ℕ}

theorem find_cons_pos {c : α} {cs : List α} (h : pat <+: c :: cs) : find pat (c :: cs) = some 0 := if_pos h

theorem find_cons_neg {c : α} {cs : List α} (h : ¬ pat <+: c :: cs) :
    find pat (c :: cs) = (find pat cs).map (· + 1) := if_neg h

theorem find_occurs (h : find pat s = some i) : pat <+: s.drop i := by
  induction s generalizing i with
  | nil =>
    rw [find] at h
    split at h
    · next hnil =>
      rw [hnil]
      exact List.nil_prefix
    · cases h
  | cons c cs ih =>
    by_cases hpre : pat <+: c :: cs
    · rw [find_cons_pos hpre] at h
      obtain rfl := Option.some.inj h
      exact hpre
    · rw [find_cons_neg hpre] at h
      obtain ⟨j, hj, rfl⟩ := Option.map_eq_some_iff.mp h
      exact ih hj

/-- The occurrence lies within the list. -/
theorem find_le (h : find pat s = some i) (hpat : pat ≠ []) : i + pat.length ≤ s.length := by
  have hlen := (find_occurs h).length_le
  have hpos := List.length_pos_iff.mpr hpat
  rw [List.length_drop] at hlen
  omega

/-- **Searching the front of a list.** -/
theorem find_take (hpat : pat ≠ []) (s : List α) (p : ℕ) :
    find pat (s.take p) = (find pat s).filter fun i => i + pat.length ≤ p := by
  have hpos := List.length_pos_iff.mpr hpat
  induction s generalizing p with
  | nil =>
    rw [List.take_nil, find, if_neg hpat]
    rfl
  | cons c cs ih =>
    cases p with
    | zero =>
      rw [List.take_zero, find, if_neg hpat, eq_comm, Option.filter_eq_none_iff]
      intro i _
      simp only [decide_eq_true_eq]
      omega
    | succ p =>
      rw [List.take_succ_cons]
      by_cases hpre : pat <+: c :: cs
      · rw [find_cons_pos hpre]
        by_cases hfits : pat.length ≤ p + 1
        · have hfront : pat <+: c :: cs.take p := by
            rw [← List.take_succ_cons]
            exact List.prefix_take_iff.mpr ⟨hpre, hfits⟩
          rw [find_cons_pos hfront, Option.filter_some, if_pos (by simpa using hfits)]
        · -- the pattern is longer than the front
          have hnone : find pat (c :: cs.take p) = none := by
            rw [Option.eq_none_iff_forall_ne_some]
            intro i hi
            have hle := find_le hi hpat
            rw [List.length_cons, List.length_take] at hle
            omega
          rw [hnone, Option.filter_some, if_neg (by simpa using hfits)]
      · have hfront : ¬ pat <+: c :: cs.take p := by
          rw [← List.take_succ_cons]
          exact fun h => hpre (h.trans (List.take_prefix _ _))
        rw [find_cons_neg hpre, find_cons_neg hfront, ih]
        cases find pat cs with
        | none => rfl
        | some i =>
          simp only [Option.filter_some, Option.map_some, decide_eq_true_eq]
          by_cases hfits : i + pat.length ≤ p
          · rw [if_pos hfits, if_pos (by omega), Option.map_some]
          · rw [if_neg hfits, if_neg (by omega), Option.map_none]

/-- **The first occurrence**: in front of the pattern, no other one begins. -/
theorem find_append (hpat : pat ≠ []) (h : find pat (s ++ pat.dropLast) = none) (t : List α) :
    find pat (s ++ (pat ++ t)) = some s.length := by
  induction s with
  | nil =>
    obtain ⟨c, cs, rfl⟩ := List.exists_cons_of_ne_nil hpat
    exact find_cons_pos (List.prefix_append _ t)
  | cons c s ih =>
    rw [List.cons_append] at h ⊢
    by_cases hpre : pat <+: c :: (s ++ pat.dropLast)
    · rw [find_cons_pos hpre] at h
      cases h
    rw [find_cons_neg hpre, Option.map_eq_none_iff] at h
    rw [find_cons_neg, ih h]
    · rfl
    intro hearly
    -- an occurrence here would end in front of the last element of the pattern
    have hfront : c :: (s ++ pat.dropLast) <+: c :: (s ++ (pat ++ t)) :=
      (List.prefix_append_right_inj (c :: s)).mpr ((List.dropLast_prefix pat).trans (List.prefix_append pat t))
    refine hpre (List.prefix_of_prefix_length_le hearly hfront ?_)
    rw [List.length_cons, List.length_append, List.length_dropLast]
    omega

theorem find_singleton_none {c : α} (h : c ∉ s) : find [c] s = none := by
  rw [Option.eq_none_iff_forall_ne_some]
  intro i hi
  have hocc := (find_occurs hi).mem List.mem_cons_self
  exact h (List.mem_of_mem_drop hocc)

theorem find_singleton_append {c : α} (h : c ∉ s) (t : List α) : find [c] (s ++ c :: t) = some s.length :=
  find_append (List.cons_ne_nil c []) (by rw [List.dropLast_singleton, List.append_nil]; exact find_singleton_none h) t

variable {p n : ℕ}

theorem find_take_of_le (h : find pat s = some i) (hn : pat.length = n) (hpos : 0 < n) (hle : i + n ≤ p) :
    find pat (s.take p) = some i := by
  rw [find_take (List.ne_nil_of_length_pos (hn ▸ hpos)), h, Option.filter_some, hn]
  exact if_pos (decide_eq_true hle)

theorem find_take_of_lt (h : find pat s = some i) (hn : pat.length = n) (hpos : 0 < n) (hlt : p < i + n) :
    find pat (s.take p) = none := by
  rw [find_take (List.ne_nil_of_length_pos (hn ▸ hpos)), h, Option.filter_some, hn]
  exact if_neg (by simpa using hlt)

theorem find_take_none (h : find pat s = none) (hpos : 0 < pat.length) : find pat (s.take p) = none := by
  rw [find_take (List.ne_nil_of_length_pos hpos), h]
  rfl

end Substring
