import Mathlib.Tactic.Lemma

/-!
# Outcomes of steps that may fail

How the outcome of several steps comes about from the outcomes of the single ones.
-/

namespace ReleaseFlags

variable {ε ε' α β : Type}

lemma bind_eq_ok {x : Except ε α} {f : α → Except ε β} {b : β} :
    x >>= f = .ok b ↔ ∃ a, x = .ok a ∧ f a = .ok b := by
  cases x with
  | ok a =>
    constructor
    · intro h
      exact ⟨a, rfl, h⟩
    · rintro ⟨_, ⟨⟩, h⟩
      exact h
  | error e =>
    constructor
    · intro h
      cases h
    · rintro ⟨_, h, -⟩
      cases h

lemma bind_eq_error {x : Except ε α} {f : α → Except ε β} {e : ε} :
    x >>= f = .error e ↔ x = .error e ∨ ∃ a, x = .ok a ∧ f a = .error e := by
  cases x with
  | ok a =>
    constructor
    · intro h
      exact .inr ⟨a, rfl, h⟩
    · rintro (h | ⟨_, ⟨⟩, h⟩)
      · cases h
      · exact h
  | error e' =>
    constructor
    · rintro ⟨⟩
      exact .inl rfl
    · rintro (⟨⟨⟩⟩ | ⟨_, h, -⟩)
      · rfl
      · cases h

lemma mapError_eq_ok {x : Except ε α} {f : ε → ε'} {a : α} :
    x.mapError f = .ok a ↔ x = .ok a := by
  cases x with
  | ok b =>
    constructor
    · rintro ⟨⟩
      rfl
    · rintro ⟨⟩
      rfl
  | error e =>
    constructor
    · intro h
      cases h
    · intro h
      cases h

lemma mapError_eq_error {x : Except ε α} {f : ε → ε'} {e : ε'} :
    x.mapError f = .error e ↔ ∃ e', x = .error e' ∧ f e' = e := by
  cases x with
  | ok a =>
    constructor
    · intro h
      cases h
    · rintro ⟨_, h, -⟩
      cases h
  | error e' =>
    constructor
    · rintro ⟨⟩
      exact ⟨e', rfl, rfl⟩
    · rintro ⟨_, ⟨⟩, rfl⟩
      rfl

/-- An outcome that passes a test is one. -/
lemma exists_of_toOption {outcome : Except ε α} {test : α → Bool}
    (h : outcome.toOption.any test = true) : ∃ a, outcome = .ok a ∧ test a = true := by
  cases outcome with
  | error e => cases h
  | ok a => exact ⟨a, rfl, h⟩

/-- A guard succeeds where its condition does not hold. -/
lemma ite_throw_eq_ok {c : Prop} [Decidable c] {e : ε} :
    (if c then throw e else pure () : Except ε Unit) = .ok () ↔ ¬ c := by
  by_cases h : c <;> simp [h, throw, throwThe, MonadExceptOf.throw, pure, Except.pure]

lemma ite_throw_eq_error {c : Prop} [Decidable c] {e e' : ε} :
    (if c then throw e else pure () : Except ε Unit) = .error e' ↔ c ∧ e = e' := by
  by_cases h : c <;> simp [h, throw, throwThe, MonadExceptOf.throw, pure, Except.pure]

/-- A list of checks succeeds where each check does. -/
lemma forM_eq_ok {f : α → Except ε Unit} {items : List α} :
    items.forM f = .ok () ↔ ∀ a ∈ items, f a = .ok () := by
  induction items with
  | nil => exact iff_of_true rfl (List.forall_mem_nil _)
  | cons first rest ih =>
    rw [List.forall_mem_cons, ← ih]
    constructor
    · intro h
      obtain ⟨_, hfirst, hrest⟩ := bind_eq_ok.mp h
      exact ⟨hfirst, hrest⟩
    · rintro ⟨hfirst, hrest⟩
      exact bind_eq_ok.mpr ⟨_, hfirst, hrest⟩

/-- Every step of a walk over a list that succeeds succeeds. -/
lemma exists_mem_of_mapM {f : α → Except ε β} {items : List α} {results : List β}
    (h : items.mapM f = .ok results) {a : α} (ha : a ∈ items) : ∃ b ∈ results, f a = .ok b := by
  induction items generalizing results with
  | nil => cases ha
  | cons first rest ih =>
    rw [List.mapM_cons] at h
    obtain ⟨b, hb, h⟩ := bind_eq_ok.mp h
    obtain ⟨others, hothers, h⟩ := bind_eq_ok.mp h
    cases h
    rcases List.mem_cons.mp ha with rfl | ha
    · exact ⟨b, List.mem_cons_self, hb⟩
    · obtain ⟨b', hb', ha'⟩ := ih hothers ha
      exact ⟨b', List.mem_cons_of_mem _ hb', ha'⟩

lemma exists_of_mem_mapM {f : α → Except ε β} {items : List α} {results : List β}
    (h : items.mapM f = .ok results) {b : β} (hb : b ∈ results) : ∃ a ∈ items, f a = .ok b := by
  induction items generalizing results with
  | nil =>
    cases h
    cases hb
  | cons first rest ih =>
    rw [List.mapM_cons] at h
    obtain ⟨c, hc, h⟩ := bind_eq_ok.mp h
    obtain ⟨others, hothers, h⟩ := bind_eq_ok.mp h
    cases h
    rcases List.mem_cons.mp hb with rfl | hb
    · exact ⟨first, List.mem_cons_self, hc⟩
    · obtain ⟨a, ha, hfa⟩ := ih hothers hb
      exact ⟨a, List.mem_cons_of_mem _ ha, hfa⟩

lemma mapM_congr_of_mem {m : Type → Type} [Monad m] [LawfulMonad m] {f g : α → m β}
    {items : List α} (h : ∀ a ∈ items, f a = g a) : items.mapM f = items.mapM g := by
  induction items with
  | nil => rfl
  | cons first rest ih =>
    rw [List.mapM_cons, List.mapM_cons, h first List.mem_cons_self,
      ih fun a ha => h a (List.mem_cons_of_mem _ ha)]

lemma foldlM_congr_of_mem {m : Type → Type} [Monad m] {f g : β → α → m β} {items : List α} {b : β}
    (h : ∀ b, ∀ a ∈ items, f b a = g b a) : items.foldlM f b = items.foldlM g b := by
  induction items generalizing b with
  | nil => rfl
  | cons first rest ih =>
    rw [List.foldlM_cons, List.foldlM_cons, h b first List.mem_cons_self]
    exact congrArg _ (funext fun b => ih fun b a ha => h b a (List.mem_cons_of_mem _ ha))

/-- A walk that gives the results of another one, each of them changed. -/
lemma mapM_map_eq_ok {γ : Type} {f : α → Except ε β} {g : α → Except ε γ} {k : β → γ}
    {items : List α} {results : List β} (h : items.mapM f = .ok results)
    (hfg : ∀ a ∈ items, ∀ b, f a = .ok b → g a = .ok (k b)) :
    items.mapM g = .ok (results.map k) := by
  induction items generalizing results with
  | nil =>
    cases h
    rfl
  | cons first rest ih =>
    rw [List.mapM_cons] at h ⊢
    obtain ⟨b, hb, h⟩ := bind_eq_ok.mp h
    obtain ⟨others, hothers, h⟩ := bind_eq_ok.mp h
    cases h
    have hrest := ih hothers fun a ha => hfg a (List.mem_cons_of_mem _ ha)
    exact bind_eq_ok.mpr ⟨k b, hfg first List.mem_cons_self b hb,
      bind_eq_ok.mpr ⟨others.map k, hrest, rfl⟩⟩

/-- What is known of each result of a walk that succeeds is known of the list of them. -/
lemma map_eq_of_mapM {γ : Type} {f : α → Except ε β} {g : α → γ} {k : β → γ} {items : List α}
    {results : List β} (h : items.mapM f = .ok results)
    (hfg : ∀ a ∈ items, ∀ b, f a = .ok b → k b = g a) : results.map k = items.map g := by
  induction items generalizing results with
  | nil =>
    cases h
    rfl
  | cons first rest ih =>
    rw [List.mapM_cons] at h
    obtain ⟨b, hb, h⟩ := bind_eq_ok.mp h
    obtain ⟨others, hothers, h⟩ := bind_eq_ok.mp h
    cases h
    rw [List.map_cons, List.map_cons, hfg first List.mem_cons_self b hb,
      ih hothers fun a ha => hfg a (List.mem_cons_of_mem _ ha)]

lemma mapM_eq_map {f : α → Except ε β} {g : α → β} {items : List α}
    (h : ∀ a ∈ items, f a = .ok (g a)) : items.mapM f = .ok (items.map g) := by
  induction items with
  | nil => rfl
  | cons first rest ih =>
    rw [List.mapM_cons, h first List.mem_cons_self,
      ih fun a ha => h a (List.mem_cons_of_mem _ ha)]
    rfl

/-- A walk succeeds if each of its steps does. -/
lemma exists_mapM_eq_ok {f : α → Except ε β} {items : List α} (h : ∀ a ∈ items, ∃ b, f a = .ok b) :
    ∃ results, items.mapM f = .ok results := by
  induction items with
  | nil => exact ⟨[], rfl⟩
  | cons first rest ih =>
    obtain ⟨b, hb⟩ := h first List.mem_cons_self
    obtain ⟨others, hothers⟩ := ih fun a ha => h a (List.mem_cons_of_mem _ ha)
    rw [List.mapM_cons]
    exact ⟨b :: others, bind_eq_ok.mpr ⟨b, hb, bind_eq_ok.mpr ⟨others, hothers, rfl⟩⟩⟩

/-- Every step of a fold that succeeds succeeds. -/
lemma exists_ok_of_foldlM {f : β → α → Except ε β} {items : List α} {b b' : β}
    (h : items.foldlM f b = .ok b') {a : α} (ha : a ∈ items) : ∃ c c', f c a = .ok c' := by
  induction items generalizing b with
  | nil => cases ha
  | cons first rest ih =>
    rw [List.foldlM_cons] at h
    obtain ⟨c, hc, h⟩ := bind_eq_ok.mp h
    rcases List.mem_cons.mp ha with rfl | ha
    · exact ⟨b, c, hc⟩
    · exact ih h ha

/-- What holds at the start of a fold, of the empty list, and is kept by every step that succeeds,
of a list that is one item longer, holds at the end of all items. -/
lemma foldlM_induction {f : β → α → Except ε β} {P : List α → β → Prop} {items : List α} {b b' : β}
    (hstep : ∀ before a s s', a ∈ items → f s a = .ok s' → P before s → P (before ++ [a]) s')
    (h : items.foldlM f b = .ok b') (hstart : P [] b) : P items b' := by
  induction items generalizing b P with
  | nil =>
    cases h
    exact hstart
  | cons first rest ih =>
    rw [List.foldlM_cons] at h
    obtain ⟨between, hfirst, h⟩ := bind_eq_ok.mp h
    refine ih (P := fun done s => P (first :: done) s) (fun before a s s' ha hok hbefore => ?_) h ?_
    · exact hstep (first :: before) a s s' (List.mem_cons_of_mem _ ha) hok hbefore
    · exact hstep [] first b between List.mem_cons_self hfirst hstart

/-- A fold that fails does so at one of its items, in a state where what holds at the start and is
kept by every step that succeeds still holds. -/
lemma exists_of_foldlM_eq_error {f : β → α → Except ε β} {P : β → Prop} {items : List α} {b : β}
    {e : ε} (hstep : ∀ s, ∀ a ∈ items, ∀ s', P s → f s a = .ok s' → P s') (hstart : P b)
    (h : items.foldlM f b = .error e) : ∃ a ∈ items, ∃ s, P s ∧ f s a = .error e := by
  induction items generalizing b with
  | nil => cases h
  | cons first rest ih =>
    rw [List.foldlM_cons] at h
    rcases bind_eq_error.mp h with h | ⟨between, hfirst, h⟩
    · exact ⟨first, List.mem_cons_self, b, hstart, h⟩
    · have hbetween := hstep b first List.mem_cons_self between hstart hfirst
      obtain ⟨a, ha, hfail⟩ :=
        ih (fun s a ha => hstep s a (List.mem_cons_of_mem _ ha)) hbetween h
      exact ⟨a, List.mem_cons_of_mem _ ha, hfail⟩

/-- In a fold that succeeds, every step was allowed by the state at the start, and by the steps
before it: what a later state allows, an earlier state and the step between them allow. -/
lemma pairwise_of_foldlM {f : β → α → Except ε β} {A : β → α → Prop} {R : α → α → Prop}
    (hallows : ∀ b a b', f b a = .ok b' → A b a)
    (hbefore : ∀ b a b' next, f b a = .ok b' → A b' next → A b next ∧ R a next)
    {items : List α} {b b' : β} (h : items.foldlM f b = .ok b') :
    (∀ a ∈ items, A b a) ∧ items.Pairwise R := by
  induction items generalizing b with
  | nil => simp
  | cons first rest ih =>
    rw [List.foldlM_cons] at h
    obtain ⟨between, hfirst, h⟩ := bind_eq_ok.mp h
    obtain ⟨hrest, hpairwise⟩ := ih h
    refine ⟨?_, List.pairwise_cons.mpr ⟨fun a ha => ?_, hpairwise⟩⟩
    · intro a ha
      rcases List.mem_cons.mp ha with rfl | ha
      · exact hallows b a between hfirst
      · exact (hbefore b first between a hfirst (hrest a ha)).1
    · exact (hbefore b first between a hfirst (hrest a ha)).2

/-! ### Runs side by side -/

section Alike

variable {γ α' β' : Type} {R : α → β → Prop} {S : α' → β' → Prop}

/-- The outcomes are the same error, or results that are related. -/
inductive Alike (R : α → β → Prop) : Except ε α → Except ε β → Prop
  | ok {a : α} {b : β} (h : R a b) : Alike R (.ok a) (.ok b)
  | error (e : ε) : Alike R (.error e) (.error e)

namespace Alike

lemma refl (x : Except ε α) : Alike Eq x x := by
  cases x with
  | ok a => exact .ok rfl
  | error e => exact .error e

lemma bind {x : Except ε α} {y : Except ε β} {f : α → Except ε α'} {g : β → Except ε β'}
    (h : Alike R x y) (hnext : ∀ a b, x = .ok a → R a b → Alike S (f a) (g b)) :
    Alike S (x >>= f) (y >>= g) := by
  cases h with
  | ok hab => exact hnext _ _ rfl hab
  | error e => exact .error e

/-- The same step is taken in both runs. -/
lemma bind_eq (x : Except ε γ) {f : γ → Except ε α'} {g : γ → Except ε β'}
    (hnext : ∀ c, x = .ok c → Alike S (f c) (g c)) : Alike S (x >>= f) (x >>= g) :=
  (refl x).bind fun c _ hc heq => heq ▸ hnext c hc

lemma foldlM {f : α → γ → Except ε α} {g : β → γ → Except ε β} {items : List γ} {a : α} {b : β}
    (h : R a b) (hstep : ∀ a b, ∀ c ∈ items, R a b → Alike R (f a c) (g b c)) :
    Alike R (items.foldlM f a) (items.foldlM g b) := by
  induction items generalizing a b with
  | nil => exact .ok h
  | cons first rest ih =>
    rw [List.foldlM_cons, List.foldlM_cons]
    refine (hstep a b first List.mem_cons_self h).bind ?_
    intro a b _ hab
    exact ih hab fun a b c hc => hstep a b c (List.mem_cons_of_mem _ hc)

lemma error_iff {x : Except ε α} {y : Except ε β} (h : Alike R x y) (e : ε) :
    x = .error e ↔ y = .error e := by
  cases h with
  | ok _ => exact iff_of_false nofun nofun
  | error e' => exact ⟨fun heq => congrArg _ (Except.error.inj heq),
      fun heq => congrArg _ (Except.error.inj heq)⟩

lemma exists_of_ok {x : Except ε α} {y : Except ε β} {a : α} (h : Alike R x y) (hx : x = .ok a) :
    ∃ b, y = .ok b ∧ R a b := by
  cases h with
  | ok hab =>
    cases hx
    exact ⟨_, rfl, hab⟩
  | error e => cases hx

end Alike

end Alike

/-! ### Which errors -/

/-- Every error of the outcome has the property. -/
def Raises (P : ε → Prop) (outcome : Except ε α) : Prop := ∀ e, outcome = .error e → P e

variable {P : ε → Prop}

@[simp] lemma raises_ok (a : α) : Raises P (.ok a) := by
  intro e h
  cases h

@[simp] lemma raises_pure (a : α) : Raises P (pure a : Except ε α) := raises_ok a

@[simp] lemma raises_error {e : ε} : Raises P (.error e : Except ε α) ↔ P e := by
  constructor
  · intro h
    exact h e rfl
  · rintro h _ ⟨⟩
    exact h

@[simp] lemma raises_throw {e : ε} : Raises P (throw e : Except ε α) ↔ P e := raises_error

lemma raises_bind {x : Except ε α} {f : α → Except ε β} (hx : Raises P x)
    (hf : ∀ a, Raises P (f a)) : Raises P (x >>= f) := by
  intro e h
  rcases bind_eq_error.mp h with h | ⟨a, -, h⟩
  · exact hx e h
  · exact hf a e h

lemma raises_foldlM {f : β → α → Except ε β} (hf : ∀ b a, Raises P (f b a)) (items : List α)
    (b : β) : Raises P (items.foldlM f b) := by
  induction items generalizing b with
  | nil => exact raises_pure b
  | cons first rest ih =>
    rw [List.foldlM_cons]
    exact raises_bind (hf b first) ih

lemma raises_mapError {x : Except ε' α} {f : ε' → ε} (h : ∀ e, P (f e)) :
    Raises P (x.mapError f) := by
  cases x with
  | ok a => exact raises_ok a
  | error e => exact raises_error.mpr (h e)

/-! ### Steps with a state -/

variable {σ : Type} {action : ExceptT ε (StateM σ) α} {next : α → ExceptT ε (StateM σ) β}
  {s s' : σ}

lemma run_bind_of_ok {a : α} (h : action.run s = (.ok a, s')) :
    (action >>= next).run s = (next a).run s' := by
  change (action >>= next) s = next a s'
  have h' : action s = (.ok a, s') := h
  simp only [bind, ExceptT.bind, ExceptT.mk, StateT.bind, h']
  rfl

lemma run_bind_of_error {e : ε} (h : action.run s = (.error e, s')) :
    (action >>= next).run s = (.error e, s') := by
  change (action >>= next) s = (.error e, s')
  have h' : action s = (.error e, s') := h
  simp only [bind, ExceptT.bind, ExceptT.mk, StateT.bind, h']
  rfl

lemma run_get_bind {next : σ → ExceptT ε (StateM σ) β} (s : σ) :
    (get >>= next).run s = (next s).run s :=
  run_bind_of_ok (rfl : (get : ExceptT ε (StateM σ) σ).run s = (.ok s, s))

lemma run_modify_bind {f : σ → σ} {next : PUnit → ExceptT ε (StateM σ) β} (s : σ) :
    (modify f >>= next).run s = (next ⟨⟩).run (f s) :=
  run_bind_of_ok (rfl : (modify f : ExceptT ε (StateM σ) PUnit).run s = (.ok ⟨⟩, f s))

lemma run_liftExcept_bind (outcome : Except ε α) (s : σ) :
    (liftExcept outcome >>= next).run s = match outcome with
      | .ok a => (next a).run s
      | .error e => (.error e, s) := by
  cases outcome <;> rfl

lemma exists_of_run_bind_eq_ok {b : β} (h : (action >>= next).run s = (.ok b, s')) :
    ∃ a s₁, action.run s = (.ok a, s₁) ∧ (next a).run s₁ = (.ok b, s') := by
  rcases hrun : action.run s with ⟨outcome, s₁⟩
  cases outcome with
  | ok a =>
    rw [run_bind_of_ok hrun] at h
    exact ⟨a, s₁, rfl, h⟩
  | error e =>
    rw [run_bind_of_error hrun] at h
    cases h

/-- In a walk that succeeds every step has found something, and what is kept of the state while the
list of these grows holds at the end of all of them. -/
lemma exists_of_run_forM {P : List β → σ → Prop} {f : α → ExceptT ε (StateM σ) PUnit}
    {find : α → Except ε β} {items : List α}
    (hstep : ∀ before a s s', P before s → (f a).run s = (.ok ⟨⟩, s') →
      ∃ b, find a = .ok b ∧ P (before ++ [b]) s')
    (h : (items.forM f).run s = (.ok ⟨⟩, s')) (hstart : P [] s) :
    ∃ found, items.mapM find = .ok found ∧ P found s' := by
  induction items generalizing s P with
  | nil =>
    cases h
    exact ⟨[], rfl, hstart⟩
  | cons first rest ih =>
    obtain ⟨_, between, hfirst, hrest⟩ := exists_of_run_bind_eq_ok h
    obtain ⟨b, hb, hbetween⟩ := hstep [] first s between hstart hfirst
    obtain ⟨found, hfound, hend⟩ := ih (P := fun more s => P (b :: more) s)
      (fun before => hstep (b :: before)) hrest hbetween
    refine ⟨b :: found, ?_, hend⟩
    rw [List.mapM_cons]
    exact bind_eq_ok.mpr ⟨b, hb, bind_eq_ok.mpr ⟨found, hfound, rfl⟩⟩

/-- The action keeps a property of the state, also where it fails. -/
def Preserves (Q : σ → Prop) (action : ExceptT ε (StateM σ) α) : Prop :=
  ∀ s, Q s → Q (action.run s).2

variable {Q : σ → Prop}

lemma preserves_pure (a : α) : Preserves Q (pure a : ExceptT ε (StateM σ) α) := fun _ h => h

lemma preserves_liftExcept (outcome : Except ε α) :
    Preserves Q (liftExcept outcome : ExceptT ε (StateM σ) α) := by
  intro s h
  cases outcome <;> exact h

/-- What the first action establishes holds at the end if an error may end there and what follows
leads there. -/
lemma run_bind_induction {P : σ → Prop} (ha : P (action.run s).2) (herror : ∀ s', P s' → Q s')
    (hnext : ∀ a s', P s' → Q ((next a).run s').2) : Q ((action >>= next).run s).2 := by
  rcases hrun : action.run s with ⟨outcome, s'⟩
  rw [hrun] at ha
  cases outcome with
  | ok a =>
    rw [run_bind_of_ok hrun]
    exact hnext a s' ha
  | error e =>
    rw [run_bind_of_error hrun]
    exact herror s' ha

lemma preserves_bind (ha : Preserves Q action) (hnext : ∀ a, Preserves Q (next a)) :
    Preserves Q (action >>= next) :=
  fun s h => run_bind_induction (ha s h) (fun _ => id) hnext

/-- What is done with a value that was found may rely on how it was found. -/
lemma preserves_liftExcept_bind {outcome : Except ε α}
    (h : ∀ a, outcome = .ok a → Preserves Q (next a)) :
    Preserves Q (liftExcept outcome >>= next) := by
  intro s hs
  rw [run_liftExcept_bind]
  cases outcome with
  | ok a => exact h a rfl s hs
  | error e => exact hs

/-- What is done after looking at the state may depend on it. -/
lemma preserves_get_bind {next : σ → ExceptT ε (StateM σ) β}
    (h : ∀ s, Q s → Q ((next s).run s).2) : Preserves Q (get >>= next) := by
  intro s hs
  rw [run_get_bind]
  exact h s hs

/-- Nothing is done after an error. -/
lemma preserves_throw_bind (e : ε) : Preserves Q ((throw e : ExceptT ε (StateM σ) α) >>= next) := by
  intro s h
  rw [run_bind_of_error (rfl : (throw e : ExceptT ε (StateM σ) α).run s = (.error e, s))]
  exact h

lemma preserves_ite {c : Prop} [Decidable c] {yes no : ExceptT ε (StateM σ) α}
    (hyes : Preserves Q yes) (hno : Preserves Q no) : Preserves Q (if c then yes else no) := by
  split
  · exact hyes
  · exact hno

lemma preserves_modify {f : σ → σ} (h : ∀ s, Q s → Q (f s)) :
    Preserves Q (modify f : ExceptT ε (StateM σ) PUnit) := h

lemma preserves_forM_of_mem {items : List α} {f : α → ExceptT ε (StateM σ) PUnit}
    (h : ∀ a ∈ items, Preserves Q (f a)) : Preserves Q (items.forM f) := by
  induction items with
  | nil => exact preserves_pure _
  | cons a rest ih =>
    obtain ⟨ha, hrest⟩ := List.forall_mem_cons.mp h
    exact preserves_bind ha fun _ => ih hrest

lemma preserves_forM {items : List α} {f : α → ExceptT ε (StateM σ) PUnit}
    (h : ∀ a, Preserves Q (f a)) : Preserves Q (items.forM f) :=
  preserves_forM_of_mem fun a _ => h a

lemma preserves_mapM {items : List α} {f : α → ExceptT ε (StateM σ) β}
    (h : ∀ a, Preserves Q (f a)) : Preserves Q (items.mapM f) := by
  induction items with
  | nil => exact preserves_pure _
  | cons a rest ih =>
    rw [List.mapM_cons]
    exact preserves_bind (h a) fun _ => preserves_bind ih fun _ => preserves_pure _

end ReleaseFlags
