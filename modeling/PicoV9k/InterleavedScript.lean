import PicoV9k.TransitionRun

/-!
# Scripts under interference

A script is sequential code over a shared state, cut into atomic actions. Between
any two actions the environment may take any number of steps. The rules below
prove a script by assertions that hold at its points and that no environment step
invalidates, together with a guarantee on each of its own actions; a machine that
runs verified scripts one after another keeps the invariant and the guarantee in
every interleaving.
-/
namespace PicoV9k.Scripts
open PicoV9k.Runs

variable {S : Type}

/-- Code over the shared state `S`. A loop carries its local variables from one
iteration to the next. -/
inductive Script (S : Type) : Type → Type 1
  | ret {α : Type} (a : α) : Script S α
  | act {α β : Type} (u : S → β × S) (k : β → Script S α) : Script S α
  | loop {α β σ : Type} (body : σ → Script S (σ ⊕ β)) (init : σ) (k : β → Script S α) : Script S α

namespace Script

def bind {α β : Type} : Script S α → (α → Script S β) → Script S β
  | ret a, f => f a
  | act u k, f => act u fun b => (k b).bind f
  | loop body i k, f => loop body i fun b => (k b).bind f

instance : Monad (Script S) where
  pure := ret
  bind := bind

/-- One atomic read. -/
def read {β : Type} (f : S → β) : Script S β := act (fun s => (f s, s)) ret

/-- One atomic update. -/
def modify (g : S → S) : Script S Unit := act (fun s => ((), g s)) ret

/-- Repeat `body` until it delivers a result. -/
def iterate {β σ : Type} (body : σ → Script S (σ ⊕ β)) (init : σ) : Script S β := loop body init ret

/-- What follows one iteration of a loop. -/
def again {α β σ : Type} (body : σ → Script S (σ ⊕ β)) (k : β → Script S α) : σ ⊕ β → Script S α
  | .inl x => loop body x k
  | .inr y => k y

/-- The next action; entering an iteration is an action of its own. -/
def step {α : Type} : Script S α → S → Option (Script S α × S)
  | ret _, _ => none
  | act u k, s => some (k (u s).1, (u s).2)
  | loop body i k, s => some ((body i).bind (again body k), s)

variable (env guar : S → S → Prop) (inv : S → Prop)

/-- The environment takes any number of steps. -/
abbrev Interference : S → S → Prop := Relation.ReflTransGen env

/-- From `s` on, with interference before every action, `inv` always holds, every
action of the script meets `guar`, and the script ends with `post`. -/
def Safe : {α : Type} → Script S α → (α → S → Prop) → S → Prop
  | _, ret a, post, s => ∀ s', Interference env s s' → inv s' ∧ post a s'
  | _, act u k, post, s =>
    ∀ s', Interference env s s' →
      inv s' ∧ guar s' (u s').2 ∧ Safe (k (u s').1) post (u s').2
  | _, loop (β := _) (σ := σ) body i k, post, s =>
    ∃ J : σ → S → Prop, J i s ∧
      ∀ x t, J x t →
        Safe (body x)
          (fun r t => match r with
            | .inl x' => J x' t
            | .inr y => Safe (k y) post t) t

/-- An assertion at a point of a script: no environment step invalidates it, and it
implies the invariant. -/
structure Point where
  holds : S → Prop
  stable : ∀ s s', holds s → env s s' → holds s'
  safe : ∀ s, holds s → inv s

variable {env guar inv} {α β σ : Type}

lemma Point.interference (p : Point env inv) {s s' : S} (h : p.holds s)
    (hs : Interference env s s') : p.holds s' := by
  induction hs with
  | refl => exact h
  | tail _ hstep ih => exact p.stable _ _ ih hstep

/-- A weaker postcondition. -/
theorem Safe.weaken {c : Script S α} {post post' : α → S → Prop} {s : S}
    (h : Safe env guar inv c post s) (hpost : ∀ a t, post a t → post' a t) :
    Safe env guar inv c post' s := by
  induction c generalizing s with
  | ret a => exact fun t ht => ⟨(h t ht).1, hpost a t (h t ht).2⟩
  | act u k ih => exact fun t ht => ⟨(h t ht).1, (h t ht).2.1, ih _ (h t ht).2.2 hpost⟩
  | loop body i k ihbody ihk =>
    obtain ⟨J, hi, hbody⟩ := h
    refine ⟨J, hi, fun x t hx => ihbody x (hbody x t hx) fun r t hr => ?_⟩
    cases r with
    | inl x' => exact hr
    | inr y => exact ihk y hr hpost

/-- Interference before a script changes nothing about its correctness. -/
theorem Safe.interference {c : Script S α} {post : α → S → Prop} {s s' : S}
    (h : Safe env guar inv c post s) (hs : Interference env s s') : Safe env guar inv c post s' := by
  induction c generalizing s s' with
  | ret a => exact fun t ht => h t (hs.trans ht)
  | act u k ih => exact fun t ht => h t (hs.trans ht)
  | loop body i k ihbody ihk =>
    obtain ⟨J, hi, hbody⟩ := h
    -- the loop invariant is closed under interference
    refine ⟨fun x t => ∃ t₀, J x t₀ ∧ Interference env t₀ t, ⟨s, hi, hs⟩, ?_⟩
    rintro x t ⟨t₀, hJ, ht⟩
    refine (ihbody x (hbody x t₀ hJ) ht).weaken fun r t' hr => ?_
    cases r with
    | inl x' => exact ⟨t', hr, .refl⟩
    | inr y => exact hr

/-- A finished script at a point that implies its postcondition. -/
theorem Safe.ret {a : α} {post : α → S → Prop} {s : S} (p : Point env inv) (hs : p.holds s)
    (hpost : ∀ t, p.holds t → post a t) : Safe env guar inv (ret a) post s := by
  intro t ht
  have h := p.interference hs ht
  exact ⟨p.safe t h, hpost t h⟩

/-- One action at a point: it is enough to go on from every state the point admits. -/
theorem Safe.act {u : S → β × S} {k : β → Script S α} {post : α → S → Prop} {s : S}
    (p : Point env inv) (hs : p.holds s) (hg : ∀ t, p.holds t → guar t (u t).2)
    (hk : ∀ t, p.holds t → Safe env guar inv (k (u t).1) post (u t).2) :
    Safe env guar inv (act u k) post s := by
  intro t ht
  have h := p.interference hs ht
  exact ⟨p.safe t h, hg t h, hk t h⟩

/-- Sequencing. -/
theorem Safe.bind {c : Script S α} {f : α → Script S β} {mid : α → S → Prop}
    {post : β → S → Prop} {s : S} (h : Safe env guar inv c mid s)
    (hf : ∀ a t, mid a t → Safe env guar inv (f a) post t) : Safe env guar inv (c.bind f) post s := by
  induction c generalizing s with
  | ret a => exact hf a s (h s .refl).2
  | act u k ih => exact fun t ht => ⟨(h t ht).1, (h t ht).2.1, ih _ (h t ht).2.2 hf⟩
  | loop body i k ihbody ihk =>
    obtain ⟨J, hi, hbody⟩ := h
    refine ⟨J, hi, fun x t hx => (hbody x t hx).weaken fun r t hr => ?_⟩
    cases r with
    | inl x' => exact hr
    | inr y => exact ihk y hr hf

/-- A loop with its invariant. -/
theorem Safe.iterate {body : σ → Script S (σ ⊕ β)} {i : σ} {post : β → S → Prop} {s : S}
    (J : σ → S → Prop) (hs : J i s)
    (hbody : ∀ x t, J x t →
      Safe env guar inv (body x) (fun r t => Sum.elim (fun x' => J x' t) (fun y => post y t) r) t)
    (hpost : ∀ y t, post y t → Safe env guar inv (Script.ret y) post t) :
    Safe env guar inv (iterate body i) post s := by
  refine ⟨J, hs, fun x t hx => (hbody x t hx).weaken fun r t hr => ?_⟩
  cases r with
  | inl x' => exact hr
  | inr y => exact hpost y t hr

/-- What one action of a verified script preserves. -/
theorem Safe.step {c c' : Script S α} {post : α → S → Prop} {s s' : S}
    (h : Safe env guar inv c post s) (hstep : c.step s = some (c', s')) :
    Safe env guar inv c' post s' := by
  cases c with
  | ret a => cases hstep
  | act u k =>
    cases hstep
    exact (h s .refl).2.2
  | loop body i k =>
    cases hstep
    obtain ⟨J, hi, hbody⟩ := h
    refine (hbody i s hi).bind fun r t hr => ?_
    cases r with
    | inl x' => exact ⟨J, hr, hbody⟩
    | inr y => exact hr

theorem Safe.guarantee {c c' : Script S α} {post : α → S → Prop} {s s' : S}
    (hrefl : ∀ t, guar t t) (h : Safe env guar inv c post s) (hstep : c.step s = some (c', s')) :
    guar s s' := by
  cases c with
  | ret a => cases hstep
  | act u k =>
    cases hstep
    exact (h s .refl).2.1
  | loop body i k =>
    cases hstep
    exact hrefl s

theorem Safe.invariant {c : Script S α} {post : α → S → Prop} {s : S}
    (h : Safe env guar inv c post s) : inv s := by
  induction c generalizing s with
  | ret a => exact (h s .refl).1
  | act u k ih => exact (h s .refl).1
  | loop body i k ihbody ihk =>
    obtain ⟨J, hi, hbody⟩ := h
    exact ihbody i (hbody i s hi)

/-- From every state of `p` the script is correct and ends in `q`. -/
def Triple (guar : S → S → Prop) (p : Point env inv) (c : Script S α) (q : α → Point env inv) : Prop :=
  ∀ s, p.holds s → c.Safe env guar inv (fun a => (q a).holds) s

/-- An assertion together with a fact about the local variables. -/
def Point.assuming (p : Point env inv) (φ : Prop) : Point env inv where
  holds s := φ ∧ p.holds s
  stable s s' h hs := ⟨h.1, p.stable s s' h.2 hs⟩
  safe s h := p.safe s h.2

section Outlines

variable {p : Point env inv}

theorem Triple.assuming {φ : Prop} {c : Script S α} {q : α → Point env inv}
    (h : φ → Triple guar p c q) : Triple guar (p.assuming φ) c q :=
  fun s hs => h hs.1 s hs.2

theorem Triple.ret {a : α} {q : α → Point env inv} (h : ∀ s, p.holds s → (q a).holds s) :
    Triple guar p (Pure.pure a) q :=
  fun _ hs => Safe.ret p hs h

theorem Triple.bind {c : Script S α} {f : α → Script S β} {m : α → Point env inv}
    {q : β → Point env inv} (h : Triple guar p c m) (hf : ∀ a, Triple guar (m a) (f a) q) :
    Triple guar p (c >>= f) q :=
  fun s hs => (h s hs).bind fun a t ht => hf a t ht

/-- A stronger assertion before, a weaker one after. -/
theorem Triple.consequence {p' : Point env inv} {c : Script S α} {q q' : α → Point env inv}
    (h : Triple guar p c q) (hp : ∀ s, p'.holds s → p.holds s)
    (hq : ∀ a s, (q a).holds s → (q' a).holds s) : Triple guar p' c q' :=
  fun s hs => (h s (hp s hs)).weaken hq

theorem Triple.act {u : S → β × S} {q : β → Point env inv}
    (hg : ∀ s, p.holds s → guar s (u s).2) (h : ∀ s, p.holds s → (q (u s).1).holds (u s).2) :
    Triple guar p (Script.act u Script.ret) q :=
  fun _ hs => Safe.act p hs hg fun t ht => Safe.ret (q (u t).1) (h t ht) fun _ => id

theorem Triple.read {f : S → β} {q : β → Point env inv} (hg : ∀ s, guar s s)
    (h : ∀ s, p.holds s → (q (f s)).holds s) : Triple guar p (Script.read f) q :=
  Triple.act (fun s _ => hg s) h

theorem Triple.modify {g : S → S} {q : Unit → Point env inv} (hg : ∀ s, p.holds s → guar s (g s))
    (h : ∀ s, p.holds s → (q ()).holds (g s)) : Triple guar p (Script.modify g) q :=
  Triple.act hg h

/-- A loop with an assertion for each value of its local variables. -/
theorem Triple.iterate {body : σ → Script S (σ ⊕ β)} {q : β → Point env inv} (J : σ → Point env inv)
    (i : σ) (h : ∀ x, Triple guar (J x) (body x) (Sum.elim J q)) :
    Triple guar (J i) (Script.iterate body i) q := by
  intro s hs
  refine Safe.iterate (fun x => (J x).holds) hs (fun x t ht => (h x t ht).weaken fun r u hr => ?_) ?_
  · cases r with
    | inl x' => exact hr
    | inr y => exact hr
  · exact fun y t ht => Safe.ret (q y) ht fun _ => id

end Outlines

/-- Every action of the script is one of `ok`. -/
def Each (ok : (β : Type) → (S → β × S) → Prop) : {α : Type} → Script S α → Prop
  | _, ret _ => True
  | _, act u k => ok _ u ∧ ∀ b, (k b).Each ok
  | _, loop body _ k => (∀ x, (body x).Each ok) ∧ ∀ y, (k y).Each ok

/-- Every result the script can deliver is one of `ok`. -/
def Returns {α : Type} (ok : α → Prop) : Script S α → Prop
  | ret a => ok a
  | act _ k => ∀ b, (k b).Returns ok
  | loop _ _ k => ∀ y, (k y).Returns ok

/-- The result of a script that is over. -/
def result {α : Type} : Script S α → Option α
  | ret a => some a
  | _ => none

section Actions

variable {ok : (β : Type) → (S → β × S) → Prop}

lemma Each.pure (a : α) : Each ok (Pure.pure a : Script S α) := trivial

lemma Each.act {u : S → β × S} {k : β → Script S α} (hu : ok _ u) (hk : ∀ b, (k b).Each ok) :
    (Script.act u k).Each ok := ⟨hu, hk⟩

lemma Each.bind {c : Script S α} {f : α → Script S β} (h : c.Each ok) (hf : ∀ a, (f a).Each ok) :
    (c >>= f).Each ok := by
  induction c with
  | ret a => exact hf a
  | act u k ih => exact ⟨h.1, fun b => ih b (h.2 b) hf⟩
  | loop body i k ihbody ihk => exact ⟨h.1, fun y => ihk y (h.2 y) hf⟩

lemma Each.iterate {body : σ → Script S (σ ⊕ β)} (h : ∀ x, (body x).Each ok) (i : σ) :
    (Script.iterate body i).Each ok := ⟨h, fun _ => trivial⟩

lemma Each.step {c c' : Script S α} {s s' : S} (h : c.Each ok) (hstep : c.step s = some (c', s')) :
    c'.Each ok := by
  cases c with
  | ret a => cases hstep
  | act u k =>
    cases hstep
    exact h.2 _
  | loop body i k =>
    cases hstep
    refine Each.bind (h.1 i) fun r => ?_
    cases r with
    | inl x => exact h
    | inr y => exact h.2 y

/-- One step is the entry of a loop round, or one of the actions. -/
lemma Each.moved {c c' : Script S α} {s s' : S} (h : c.Each ok) (hstep : c.step s = some (c', s')) :
    s' = s ∨ ∃ (β : Type) (u : S → β × S), ok _ u ∧ s' = (u s).2 := by
  cases c with
  | ret a => cases hstep
  | act u k =>
    cases hstep
    exact .inr ⟨_, u, h.1, rfl⟩
  | loop body i k =>
    cases hstep
    exact .inl rfl

end Actions

section Results

variable {ok : α → Prop} {ok' : β → Prop}

lemma Returns.bind {c : Script S α} {f : α → Script S β} (hf : ∀ a, (f a).Returns ok') :
    (c >>= f).Returns ok' := by
  induction c with
  | ret a => exact hf a
  | act u k ih => exact fun b => ih b hf
  | loop body i k ihbody ihk => exact fun y => ihk y hf

lemma Returns.step {c c' : Script S α} {s s' : S} (h : c.Returns ok) (hstep : c.step s = some (c', s')) :
    c'.Returns ok := by
  cases c with
  | ret a => cases hstep
  | act u k =>
    cases hstep
    exact h _
  | loop body i k =>
    cases hstep
    refine Returns.bind fun r => ?_
    cases r with
    | inl x => exact h
    | inr y => exact h y

lemma Returns.result {c : Script S α} (h : c.Returns ok) {a : α} (ha : c.result = some a) : ok a := by
  cases c with
  | ret b =>
    cases ha
    exact h
  | act u k => cases ha
  | loop body i k => cases ha

end Results

section Executions

/-- The script takes its next action, or the environment a step. -/
inductive Turn (env : S → S → Prop) : Script S α × S → Script S α × S → Prop
  | script {c c' : Script S α} {s s' : S} (h : c.step s = some (c', s')) : Turn env (c, s) (c', s')
  | env {s s' : S} (c : Script S α) (h : env s s') : Turn env (c, s) (c, s')

/-- From a script in a state to what is left of it in a later one. -/
abbrev Execution (env : S → S → Prop) : Script S α × S → Script S α × S → Prop :=
  Relation.ReflTransGen (Turn env)

lemma bind_assoc {γ : Type} (c : Script S α) (f : α → Script S β) (g : β → Script S γ) :
    (c.bind f).bind g = c.bind fun a => (f a).bind g := by
  induction c with
  | ret a => rfl
  | act u k ih => exact congrArg (Script.act u) (funext fun b => ih b f)
  | loop body i k ihbody ihk => exact congrArg (Script.loop body i) (funext fun b => ihk b f)

/-- A script in front of another one steps as it does alone. -/
lemma step_bind {c c' : Script S α} {f : α → Script S β} {s s' : S}
    (h : c.step s = some (c', s')) : (c.bind f).step s = some (c'.bind f, s') := by
  cases c with
  | ret a => cases h
  | act u k =>
    cases h
    rfl
  | loop body i k =>
    cases h
    have hagain : (fun r => (again body k r).bind f) = again body fun b => (k b).bind f := by
      funext r
      cases r with
      | inl x => rfl
      | inr y => rfl
    rw [bind_assoc, hagain]
    rfl

/-- A script that does not end here has a next step. -/
lemma ret_or_step (c : Script S α) (s : S) :
    (∃ a, c = Script.ret a) ∨ ∃ c' s', c.step s = some (c', s') := by
  cases c with
  | ret a => exact .inl ⟨a, rfl⟩
  | act u k => exact .inr ⟨_, _, rfl⟩
  | loop body i k => exact .inr ⟨_, _, rfl⟩

/-- Interference alone leaves the script where it is. -/
lemma Execution.of_interference {s s' : S} (c : Script S α) (h : Interference env s s') :
    Execution env (c, s) (c, s') := by
  induction h with
  | refl => exact .refl
  | tail _ hstep ih => exact ih.tail (.env c hstep)

/-- A script in front of another one runs as it does alone. -/
lemma Execution.bind_left {c c' : Script S α} {s s' : S} (h : Execution env (c, s) (c', s'))
    (f : α → Script S β) : Execution env (c >>= f, s) (c' >>= f, s') := by
  generalize hx : (c, s) = x at h
  generalize hy : (c', s') = y at h
  induction h generalizing c' s' with
  | refl =>
    obtain ⟨rfl, rfl⟩ := Prod.mk.inj (hx.trans hy.symm)
    exact .refl
  | @tail y z _ hturn ih =>
    subst hy
    cases hturn with
    | script hstep => exact (ih rfl).tail (.script (step_bind hstep))
    | env _ henv => exact (ih rfl).tail (.env _ henv)

/-- Two scripts in a row: the first ends, then the second starts. -/
theorem Execution.bind {c : Script S α} {f : α → Script S β} {b : β} {s s' : S}
    (h : Execution env (c >>= f, s) (Script.ret b, s')) :
    ∃ a t, Execution env (c, s) (Script.ret a, t) ∧ Execution env (f a, t) (Script.ret b, s') := by
  generalize hx : (c >>= f, s) = x at h
  induction h using Relation.ReflTransGen.head_induction_on generalizing c s with
  | refl =>
    obtain ⟨hc, rfl⟩ := Prod.mk.inj hx
    cases c with
    | ret a => exact ⟨a, _, .refl, hc ▸ .refl⟩
    | act u k => cases hc
    | loop body i k => cases hc
  | @head x y hturn hrest ih =>
    subst hx
    cases hturn with
    | env _ henv =>
      obtain ⟨a, t, hfirst, hsecond⟩ := ih rfl
      exact ⟨a, t, hfirst.head (.env c henv), hsecond⟩
    | script hstep =>
      rcases ret_or_step c s with ⟨a, rfl⟩ | ⟨c₁, s₁, hc⟩
      · exact ⟨a, s, .refl, hrest.head (.script hstep)⟩
      · have hboth : (c₁ >>= f, s₁) = _ := Option.some.inj ((step_bind hc).symm.trans hstep)
        obtain ⟨a, t, hfirst, hsecond⟩ := ih hboth
        exact ⟨a, t, hfirst.head (.script hc), hsecond⟩

/-- The first action of an execution that ends, after some interference. -/
theorem Execution.act {u : S → β × S} {k : β → Script S α} {a : α} {s s' : S}
    (h : Execution env (Script.act u k, s) (Script.ret a, s')) :
    ∃ t, Interference env s t ∧ Execution env (k (u t).1, (u t).2) (Script.ret a, s') := by
  generalize hx : (Script.act u k, s) = x at h
  induction h using Relation.ReflTransGen.head_induction_on generalizing s with
  | refl => cases hx
  | @head x y hturn hrest ih =>
    subst hx
    cases hturn with
    | env _ henv =>
      obtain ⟨t, ht, hlast⟩ := ih rfl
      exact ⟨t, ht.head henv, hlast⟩
    | script hstep =>
      cases hstep
      exact ⟨s, .refl, hrest⟩

/-- What is left of a verified script is verified. -/
theorem Safe.execution {c c' : Script S α} {post : α → S → Prop} {s s' : S}
    (h : Safe env guar inv c post s) (hexec : Execution env (c, s) (c', s')) :
    Safe env guar inv c' post s' := by
  generalize hx : (c, s) = x at hexec
  generalize hy : (c', s') = y at hexec
  induction hexec generalizing c' s' with
  | refl =>
    obtain ⟨rfl, rfl⟩ := Prod.mk.inj (hx.trans hy.symm)
    exact h
  | @tail y z hfirst hturn ih =>
    subst hy
    cases hturn with
    | script hstep => exact (ih rfl).step hstep
    | env _ henv => exact (ih rfl).interference (.single henv)

/-- A script whose actions all keep an assertion keeps it. -/
theorem Triple.of_each {ok : (β : Type) → (S → β × S) → Prop} {p : Point env inv}
    (hok : ∀ (β : Type) (u : S → β × S), ok β u → ∀ s, p.holds s → guar s (u s).2 ∧ p.holds (u s).2)
    {c : Script S α} (h : c.Each ok) : Triple guar p c fun _ => p := by
  intro s hs
  induction c generalizing s with
  | ret a => exact Safe.ret p hs fun _ ht => ht
  | act u k ih =>
    exact Safe.act p hs (fun t ht => (hok _ u h.1 t ht).1) fun t ht => ih _ (h.2 _) _ (hok _ u h.1 t ht).2
  | loop body i k ihbody ihk =>
    refine ⟨fun _ => p.holds, hs, fun x t ht => (ihbody x (h.1 x) t ht).weaken fun r t' ht' => ?_⟩
    cases r with
    | inl x' => exact ht'
    | inr y => exact ihk y (h.2 y) t' ht'

end Executions

end Script

/-- A shared state with the script that runs on it. -/
structure Machine (S : Type) where
  shared : S
  code : Script S Unit

/-- The machine goes on with its script, starts the next call, or is interfered with. -/
inductive Move (C E : Type)
  | core
  | call (c : C)
  | env (e : E)

variable {C E : Type}

def Machine.step (body : C → Script S Unit) (envStep : S → E → Option S) (m : Machine S) :
    Move C E → Option (Machine S)
  | .core => (m.code.step m.shared).map fun r => ⟨r.2, r.1⟩
  | .call c => match m.code with
    | .ret _ => some ⟨m.shared, body c⟩
    | _ => none
  | .env e => (envStep m.shared e).map fun s => ⟨s, m.code⟩

/-- Which environment steps are admitted. -/
def Move.Admits (allow : S → E → Prop) (m : Machine S) : Move C E → Prop
  | .env e => allow m.shared e
  | _ => True

/-- The admitted environment steps, as a relation on states. -/
def EnvRel (envStep : S → E → Option S) (allow : S → E → Prop) (s s' : S) : Prop :=
  ∃ e, allow s e ∧ envStep s e = some s'

/-- Play some turns: `none` is the script's, `some e` the environment's. -/
def Script.play {α : Type} (envStep : S → E → Option S) :
    List (Option E) → Script S α × S → Option (Script S α × S)
  | [], x => some x
  | none :: turns, x => (x.1.step x.2).bind (Script.play envStep turns)
  | some e :: turns, x => (envStep x.2 e).bind fun s => Script.play envStep turns (x.1, s)

/-- What is played is an execution if every turn of the environment is admitted. -/
lemma Script.Execution.of_play {α : Type} {envStep : S → E → Option S} {allow : S → E → Prop}
    {turns : List (Option E)} (hallow : ∀ e ∈ turns.filterMap id, ∀ s, allow s e)
    {x y : Script S α × S} (h : Script.play envStep turns x = some y) :
    Script.Execution (EnvRel envStep allow) x y := by
  induction turns generalizing x with
  | nil =>
    cases h
    exact .refl
  | cons turn turns ih =>
    cases turn with
    | none =>
      obtain ⟨z, hz, hrest⟩ := Option.bind_eq_some_iff.mp h
      exact (ih hallow hrest).head (.script hz)
    | some e =>
      obtain ⟨s, hs, hrest⟩ := Option.bind_eq_some_iff.mp h
      have hhead := hallow e (by simp) x.2
      exact (ih (fun e' he' => hallow e' (by simp at he' ⊢; exact .inr he')) hrest).head
        (.env x.1 ⟨e, hhead, hs⟩)

/-- The script of the machine is verified from its present state on. -/
def Machine.Verified (env guar : S → S → Prop) (inv idle : S → Prop) (m : Machine S) : Prop :=
  m.code.Safe env guar inv (fun _ => idle) m.shared

/-- Verified calls stay verified in every interleaving with the environment. -/
theorem Machine.run_verified {body : C → Script S Unit} {envStep : S → E → Option S}
    {allow : S → E → Prop} {guar : S → S → Prop} {inv idle : S → Prop}
    (hbody : ∀ c s, idle s → (body c).Safe (EnvRel envStep allow) guar inv (fun _ => idle) s)
    {m m' : Machine S} {moves : List (Move C E)}
    (hrun : Guarded (Machine.step body envStep) (Move.Admits allow) m moves m')
    (hm : m.Verified (EnvRel envStep allow) guar inv idle) :
    m'.Verified (EnvRel envStep allow) guar inv idle := by
  refine hrun.invariant (fun m move m' hm hguard hstep => ?_) hm
  cases move with
  | core =>
    simp only [Machine.step, Option.map_eq_some_iff] at hstep
    obtain ⟨r, hr, rfl⟩ := hstep
    exact Script.Safe.step hm hr
  | call c =>
    simp only [Machine.step] at hstep
    split at hstep
    next a hcode =>
      cases hstep
      rw [Machine.Verified, hcode] at hm
      exact hbody c m.shared (hm m.shared .refl).2
    · cases hstep
  | env e =>
    simp only [Machine.step, Option.map_eq_some_iff] at hstep
    obtain ⟨s, hs, rfl⟩ := hstep
    exact Script.Safe.interference hm (.single ⟨e, hguard, hs⟩)

end PicoV9k.Scripts
