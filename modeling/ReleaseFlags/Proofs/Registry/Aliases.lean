import Mathlib.Logic.Relation
import ReleaseFlags.Proofs.NameMap
import ReleaseFlags.Registry.Basic

/-!
# Following aliases

The names on the way are different ones, and all but the last are aliases, so the number of
aliases bounds the steps: allowing more of them changes nothing (`followAliases_eq`).  What relates
each alias on the way to its target relates the first name to the last one
(`reflTransGen_of_aliasChain`).
-/

namespace ReleaseFlags

namespace Registry

variable {aliases : NameMap String} {steps : Nat} {name : String} {trace : List String}

/-- The names on the way to a name, when enough steps are left. -/
structure Underway (aliases : NameMap String) (steps : Nat) (name : String)
    (trace : List String) : Prop where
  nodup : trace.Nodup
  subset : trace ⊆ name :: aliases.names
  size_lt : aliases.size + 1 < trace.length + steps

lemma underway_start (h : aliases.size < steps) (name : String) :
    Underway aliases steps name [name] := by
  refine ⟨by simp, by simp, ?_⟩
  rw [List.length_singleton]
  omega

lemma Underway.exists_succ (h : Underway aliases steps name trace) :
    ∃ less, steps = less + 1 := by
  have hlength := h.nodup.length_le_of_subset h.subset
  have hsize := h.size_lt
  rw [List.length_cons, NameMap.length_names] at hlength
  exact ⟨steps - 1, by omega⟩

lemma Underway.step (h : Underway aliases (steps + 1) name trace) {target : String}
    (hget : aliases.get? name = some target) (hmem : target ∉ trace) :
    Underway aliases steps target (trace ++ [target]) := by
  refine ⟨?_, ?_, ?_⟩
  · rw [List.nodup_append]
    refine ⟨h.nodup, by simp, ?_⟩
    rintro other hother _ hlast rfl
    rw [List.mem_singleton] at hlast
    exact hmem (hlast ▸ hother)
  · intro other hother
    rw [List.mem_append, List.mem_singleton] at hother
    rcases hother with hother | rfl
    · rcases List.mem_cons.mp (h.subset hother) with rfl | hother
      · exact List.mem_cons_of_mem _ (NameMap.mem_names.mpr ⟨target, hget⟩)
      · exact List.mem_cons_of_mem _ hother
    · exact List.mem_cons_self
  · have hsize := h.size_lt
    rw [List.length_append, List.length_singleton]
    omega

lemma followAliases_succ_eq (h : Underway aliases steps name trace) :
    followAliases aliases (steps + 1) name trace = followAliases aliases steps name trace := by
  induction steps generalizing name trace with
  | zero =>
    obtain ⟨_, hless⟩ := h.exists_succ
    omega
  | succ steps ih =>
    rw [followAliases, followAliases]
    cases hget : aliases.get? name with
    | none => rfl
    | some target =>
      by_cases hmem : target ∈ trace
      · simp only [if_pos hmem]
      · simp only [if_neg hmem]
        exact ih (h.step hget hmem)

/-- Following a name through aliases takes no more steps than there are aliases. -/
theorem followAliases_eq (h : aliases.size < steps) (name : String) :
    followAliases aliases steps name [name] = aliasChain aliases name := by
  induction h with
  | refl => rfl
  | step h ih =>
    rw [← ih]
    exact followAliases_succ_eq (underway_start h name)

/-! ### The way to the end -/

variable {last : String} {way : List String}

/-- The way ends where a name is no alias, and starts with the names that were passed before. -/
lemma followAliases_ok (h : followAliases aliases steps name trace = .ok (last, way)) :
    aliases.get? last = none ∧ trace <+: way := by
  induction steps generalizing name trace with
  | zero => cases h
  | succ steps ih =>
    rw [followAliases] at h
    split at h
    · next hnone =>
      cases h
      exact ⟨hnone, List.prefix_rfl⟩
    · split at h
      · cases h
      · obtain ⟨hlast, hprefix⟩ := ih h
        exact ⟨hlast, (List.prefix_append _ _).trans hprefix⟩

lemma reflTransGen_of_followAliases {R : String → String → Prop}
    (hstep : ∀ other ∈ way, ∀ target, aliases.get? other = some target → R other target)
    (h : followAliases aliases steps name trace = .ok (last, way)) (hmem : name ∈ trace) :
    Relation.ReflTransGen R name last := by
  induction steps generalizing name trace with
  | zero => cases h
  | succ steps ih =>
    have hway := (followAliases_ok h).2.subset hmem
    rw [followAliases] at h
    split at h
    · cases h
      exact .refl
    · next target hget =>
      split at h
      · cases h
      · exact .head (hstep name hway target hget) (ih h (by simp))

/-- What relates each alias on the way to its target relates the name to the end of the way. -/
theorem reflTransGen_of_aliasChain {R : String → String → Prop}
    (h : aliasChain aliases name = .ok (last, way))
    (hstep : ∀ other ∈ way, ∀ target, aliases.get? other = some target → R other target) :
    Relation.ReflTransGen R name last :=
  reflTransGen_of_followAliases hstep h (List.mem_singleton_self name)

end Registry

end ReleaseFlags
