import PicoV9k.TransitionRun

/-!
# Simulation by a specification

A specification is a labelled relation whose behaviours are its traces. A system
refines it when each of its steps is matched by a trace that shows the same; then
each of its runs is matched as well.
-/
namespace PicoV9k.Runs

variable {S A T E V : Type*}

/-- The events lead from the first state of a specification to the second. -/
inductive Trace (rel : T → E → T → Prop) : T → List E → T → Prop
  | nil (t : T) : Trace rel t [] t
  | cons {t t' t'' : T} {e : E} {es : List E} (hs : rel t e t') (hr : Trace rel t' es t'') :
      Trace rel t (e :: es) t''

variable {rel : T → E → T → Prop}

lemma Trace.single {t t' : T} {e : E} (h : rel t e t') : Trace rel t [e] t' := .cons h (.nil t')

lemma Trace.append {t t' t'' : T} {es fs : List E} (h : Trace rel t es t') (g : Trace rel t' fs t'') :
    Trace rel t (es ++ fs) t'' := by
  induction h with
  | nil t => exact g
  | cons hs _ ih => exact .cons hs (ih g)

end PicoV9k.Runs
