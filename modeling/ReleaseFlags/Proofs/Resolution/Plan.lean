import ReleaseFlags.Proofs.Outcome
import ReleaseFlags.Resolution.Basic

/-!
# Plans of resolution

Resolving a config depends on other configs only through their resolutions, and on those
one after the other.  A plan makes this visible: it is either finished or asks for the
resolution of one config and goes on with the answer.  Compiling a config in any monad is
carrying out its plan there (`compile_eq_run`), so what holds of all plans holds of
compiling with a cache, without one, and with any other way to answer the questions.
-/

namespace ReleaseFlags

/-- What is left to do in resolving a config. -/
inductive Plan (α : Type) where
  | done (outcome : Except Error α)
  /-- Ask for the resolution of a config and go on with the answer. -/
  | ask (config : ReleaseConfig) (next : Resolved → Plan α)

namespace Plan

variable {α β : Type}

/-- Goes on with the result of a plan. -/
def bind : Plan α → (α → Plan β) → Plan β
  | done (.ok a), f => f a
  | done (.error e), _ => done (.error e)
  | ask config next, f => ask config fun resolved => (next resolved).bind f

instance : Monad Plan where
  pure a := done (.ok a)
  bind := Plan.bind

instance : MonadLift (Except Error) Plan := ⟨done⟩

/-- Only asks for a config. -/
def query (config : ReleaseConfig) : Plan Resolved := ask config pure

/-! ### Carrying out a plan -/

section Run

variable {m : Type → Type} [Monad m] [MonadLiftT (Except Error) m]

/-- Carries out a plan, given how to resolve a config. -/
def run (resolve : ReleaseConfig → m Resolved) : Plan α → m α
  | done outcome => liftM outcome
  | ask config next => do (next (← resolve config)).run resolve

variable [LawfulMonadLiftT (Except Error) m]

@[simp] lemma run_pure (resolve : ReleaseConfig → m Resolved) (a : α) :
    (pure a : Plan α).run resolve = pure a := monadLift_pure (m := Except Error) a

variable [LawfulMonad m]

/-- After an error nothing is done.  An error has no value to go on with, so it is the same
in every type, also in the empty one. -/
lemma liftM_error_bind (e : Error) (f : α → m β) :
    (liftM (.error e : Except Error α) : m α) >>= f = liftM (.error e : Except Error β) := by
  have hlift {γ : Type} : (liftM (.error e : Except Error γ) : m γ) =
      liftM (.error e : Except Error Empty) >>= fun x => nomatch x := by
    have h := monadLift_bind (n := m) (.error e : Except Error Empty)
      (fun x => (nomatch x : Except Error γ))
    refine h.trans (congrArg _ ?_)
    funext x
    exact nomatch x
  rw [hlift, hlift (γ := β), bind_assoc]
  refine congrArg _ ?_
  funext x
  exact nomatch x

omit [LawfulMonad m] [LawfulMonadLiftT (Except Error) m] in
@[simp] lemma run_liftM (resolve : ReleaseConfig → m Resolved) (outcome : Except Error α) :
    (liftM outcome : Plan α).run resolve = liftM outcome := rfl

@[simp] lemma run_query (resolve : ReleaseConfig → m Resolved) (config : ReleaseConfig) :
    (query config).run resolve = resolve config := by
  change (resolve config >>= fun resolved => (pure resolved : Plan Resolved).run resolve) = _
  simp only [run_pure, bind_pure]

@[simp] lemma run_bind (resolve : ReleaseConfig → m Resolved) (p : Plan α) (f : α → Plan β) :
    (p >>= f).run resolve = p.run resolve >>= fun a => (f a).run resolve := by
  induction p with
  | done outcome =>
    cases outcome with
    | ok a =>
      have h := monadLift_pure (m := Except Error) (n := m) a
      exact ((congrArg (· >>= fun a => (f a).run resolve) h).trans (pure_bind a _)).symm
    | error e => exact (liftM_error_bind e _).symm
  | ask config next ih =>
    change (resolve config >>= fun r => ((next r) >>= f).run resolve) =
      (resolve config >>= fun r => (next r).run resolve) >>= _
    rw [bind_assoc]
    exact congrArg _ (funext ih)

lemma run_foldlM (resolve : ReleaseConfig → m Resolved) (f : β → α → Plan β) (items : List α)
    (b : β) :
    (items.foldlM f b).run resolve = items.foldlM (fun b a => (f b a).run resolve) b := by
  induction items generalizing b with
  | nil => exact run_pure resolve b
  | cons a rest ih => simp only [List.foldlM_cons, run_bind, ih]

end Run

end Plan

namespace Registry

/-- The plan of resolving a config. -/
def plan (registry : Registry) (config : ReleaseConfig) : Plan Resolved :=
  registry.compile Plan.query config

/-- Compiling a config is carrying out its plan. -/
theorem compile_eq_run {m : Type → Type} [Monad m] [MonadLiftT (Except Error) m] [LawfulMonad m]
    [LawfulMonadLiftT (Except Error) m] (registry : Registry)
    (resolve : ReleaseConfig → m Resolved) (config : ReleaseConfig) :
    registry.compile resolve config = (registry.plan config).run resolve := by
  have hparent (working : Working) (name : String) :
      (registry.inheritParent Plan.query config working name).run resolve =
        registry.inheritParent resolve config working name := by
    simp only [inheritParent, Plan.run_bind, Plan.run_liftM, Plan.run_query]
  have hvariant (working : Working) :
      (registry.inheritVariant Plan.query config working).run resolve =
        registry.inheritVariant resolve config working := by
    simp only [inheritVariant, Plan.run_bind, Plan.run_liftM]
    refine congrArg _ (funext fun variant => ?_)
    cases variant with
    | none => exact Plan.run_pure resolve working
    | some variant => simp only [Plan.run_bind, Plan.run_liftM, Plan.run_query]
  simp only [plan, compile, Plan.run_bind, Plan.run_foldlM, Plan.run_liftM, hparent, hvariant]

end Registry

namespace Plan

variable {α β : Type}

/-! ### What a plan asks for -/

/-- All configs that a plan may ask for, whatever the answers are. -/
def All (P : ReleaseConfig → Prop) : Plan α → Prop
  | done _ => True
  | ask config next => P config ∧ ∀ resolved, (next resolved).All P

lemma all_bind {P : ReleaseConfig → Prop} {p : Plan α} {f : α → Plan β} (hp : p.All P)
    (hf : ∀ a, (f a).All P) : (p >>= f).All P := by
  induction p with
  | done outcome =>
    cases outcome with
    | ok a => exact hf a
    | error e => trivial
  | ask config next ih => exact ⟨hp.1, fun resolved => ih resolved (hp.2 resolved)⟩

lemma all_foldlM {P : ReleaseConfig → Prop} {f : β → α → Plan β} {items : List α} (b : β)
    (hf : ∀ b, ∀ a ∈ items, (f b a).All P) : (items.foldlM f b).All P := by
  induction items generalizing b with
  | nil => trivial
  | cons a rest ih =>
    rw [List.foldlM_cons]
    refine all_bind (hf b a List.mem_cons_self) fun b => ih b fun b a ha => ?_
    exact hf b a (List.mem_cons_of_mem _ ha)

/-- Two ways to resolve that agree on what a plan may ask for carry it out alike. -/
lemma run_congr {m : Type → Type} [Monad m] [MonadLiftT (Except Error) m]
    {f g : ReleaseConfig → m Resolved} {P : ReleaseConfig → Prop} {p : Plan α} (hp : p.All P)
    (h : ∀ config, P config → f config = g config) : p.run f = p.run g := by
  induction p with
  | done outcome => rfl
  | ask config next ih =>
    simp only [run, h config hp.1]
    exact congrArg _ (funext fun resolved => ih resolved (hp.2 resolved))

/-- A plan asks for a config when its questions are answered by a function. -/
def Asks (f : ReleaseConfig → Except Error Resolved) : Plan α → ReleaseConfig → Prop
  | done _, _ => False
  | ask config next, other =>
    other = config ∨ ∃ resolved, f config = .ok resolved ∧ (next resolved).Asks f other

variable {f g : ReleaseConfig → Except Error Resolved} {p : Plan α} {config : ReleaseConfig}

lemma All.of_asks {P : ReleaseConfig → Prop} (hp : p.All P) (h : p.Asks f config) :
    P config := by
  induction p with
  | done outcome => exact h.elim
  | ask first next ih =>
    rcases h with rfl | ⟨resolved, -, h⟩
    · exact hp.1
    · exact ih resolved (hp.2 resolved) h

/-- A plan that succeeds also succeeds, with the same result, with any function that repeats
the answers it was given. -/
lemma run_ok_of_asks {a : α} (h : p.run f = .ok a)
    (hg : ∀ config resolved, p.Asks f config → f config = .ok resolved →
      g config = .ok resolved) : p.run g = .ok a := by
  induction p with
  | done outcome => exact h
  | ask first next ih =>
    obtain ⟨resolved, hfirst, h⟩ := bind_eq_ok.mp h
    refine bind_eq_ok.mpr ⟨resolved, hg first resolved (.inl rfl) hfirst, ih resolved h ?_⟩
    intro config r hasks
    exact hg config r (.inr ⟨resolved, hfirst, hasks⟩)

/-- Where a plan succeeds with one function, that function resolves all that the plan asks
for, also when another function answers, as long as both never give different answers. -/
lemma Asks.ok_of_run_ok {a : α} (h : p.Asks f config) (hg : p.run g = .ok a)
    (hfg : ∀ config r s, f config = .ok r → g config = .ok s → r = s) :
    ∃ resolved, g config = .ok resolved := by
  induction p with
  | done outcome => exact h.elim
  | ask first next ih =>
    obtain ⟨resolved, hfirst, hg⟩ := bind_eq_ok.mp hg
    rcases h with rfl | ⟨r, hr, h⟩
    · exact ⟨resolved, hfirst⟩
    · obtain rfl := hfg first r resolved hr hfirst
      exact ih r h hg

/-! ### How a plan fails -/

/-- Every error that the plan itself ends with has the property, whatever the answers are. -/
def Raises (P : Error → Prop) : Plan α → Prop
  | done outcome => ReleaseFlags.Raises P outcome
  | ask _ next => ∀ resolved, (next resolved).Raises P

lemma plan_raises_bind {P : Error → Prop} {p : Plan α} {f : α → Plan β} (hp : p.Raises P)
    (hf : ∀ a, (f a).Raises P) : (p >>= f).Raises P := by
  induction p with
  | done outcome =>
    cases outcome with
    | ok a => exact hf a
    | error e => exact raises_error.mpr (raises_error.mp hp)
  | ask config next ih => exact fun resolved => ih resolved (hp resolved)

lemma plan_raises_foldlM {P : Error → Prop} {f : β → α → Plan β}
    (hf : ∀ b a, (f b a).Raises P) (items : List α) (b : β) : (items.foldlM f b).Raises P := by
  induction items generalizing b with
  | nil => exact raises_ok b
  | cons a rest ih => exact plan_raises_bind (hf b a) ih

/-- A plan fails with an error of its own or with that of a question. -/
lemma run_eq_error {P : Error → Prop} {e : Error} (hp : p.Raises P) (h : p.run f = .error e) :
    P e ∨ ∃ other, p.Asks f other ∧ f other = .error e := by
  induction p with
  | done outcome => exact .inl (hp e h)
  | ask first next ih =>
    rcases bind_eq_error.mp h with hfirst | ⟨resolved, hfirst, h⟩
    · exact .inr ⟨first, .inl rfl, hfirst⟩
    · rcases ih resolved (hp resolved) h with he | ⟨other, hasks, hother⟩
      · exact .inl he
      · exact .inr ⟨other, .inr ⟨resolved, hfirst, hasks⟩, hother⟩

end Plan

end ReleaseFlags
