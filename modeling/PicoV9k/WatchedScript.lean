import PicoV9k.InterleavedScript

/-!
# Watched scripts

An observer keeps a record beside the shared state and brings it up to date after every
action of a script, from the states around it. The script itself runs as it does alone.
-/
namespace PicoV9k.Scripts

variable {S G : Type}

/-- A shared state and a record about it. -/
structure Watched (S G : Type) where
  shared : S
  record : G

namespace Script

variable {α β σ : Type}

/-- What an observed action does. -/
def observe (note : S → S → G → G) (u : S → β × S) (x : Watched S G) : β × Watched S G :=
  ((u x.shared).1, ⟨(u x.shared).2, note x.shared (u x.shared).2 x.record⟩)

/-- The script under observation. -/
def watch (note : S → S → G → G) : {α : Type} → Script S α → Script (Watched S G) α
  | _, ret a => ret a
  | _, act u k => act (observe note u) fun b => (k b).watch note
  | _, loop body i k => loop (fun x => (body x).watch note) i fun y => (k y).watch note

variable {note : S → S → G → G}

lemma watch_bind (c : Script S α) (f : α → Script S β) :
    (c >>= f).watch note = c.watch note >>= fun a => (f a).watch note := by
  induction c with
  | ret a => rfl
  | act u k ih => exact congrArg (Script.act (observe note u)) (funext fun b => ih b f)
  | loop body i k ihbody ihk =>
    exact congrArg (Script.loop (fun x => (body x).watch note) i) (funext fun y => ihk y f)

lemma watch_again (note : S → S → G → G) (body : σ → Script S (σ ⊕ β)) (k : β → Script S α) (r : σ ⊕ β) :
    (again body k r).watch note =
      again (fun x => (body x).watch note) (fun y => (k y).watch note) r := by
  cases r with
  | inl x => rfl
  | inr y => rfl

/-- A watched script takes the steps of the script, if the observer notes nothing where nothing happens. -/
theorem step_watch (hself : ∀ s g, note s s g = g) (c : Script S α) (x : Watched S G) :
    (c.watch note).step x =
      (c.step x.shared).map fun r => (r.1.watch note, ⟨r.2, note x.shared r.2 x.record⟩) := by
  cases c with
  | ret a => rfl
  | act u k => rfl
  | loop body i k =>
    have hagain := funext (watch_again note body k)
    have hbind := (congrArg (((body i).watch note).bind ·) hagain.symm).trans (watch_bind (body i) _).symm
    have hrecord : (⟨x.shared, note x.shared x.shared x.record⟩ : Watched S G) = x := by rw [hself]
    simp only [step, Option.map_some, hrecord]
    exact congrArg (fun c => some (c, x)) hbind

end Script

end PicoV9k.Scripts
