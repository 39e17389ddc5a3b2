import Mathlib.Tactic

/-!
# Runs of a partial labelled transition

A step may be refused. A guarded run is a finite sequence of accepted steps each
of which also meets a condition on the state before it and its label; invariants
are established for one step and carried along such runs.
-/
namespace PicoV9k.Runs

variable {S A : Type*}

/-- `as` leads from the first state to the second, every step accepted and guarded. -/
inductive Guarded (step : S → A → Option S) (guard : S → A → Prop) : S → List A → S → Prop
  | nil (s : S) : Guarded step guard s [] s
  | cons {s s' s'' : S} {a : A} {as : List A} (hg : guard s a) (hs : step s a = some s')
      (hr : Guarded step guard s' as s'') : Guarded step guard s (a :: as) s''

/-- A run under no condition. -/
abbrev Run (step : S → A → Option S) : S → List A → S → Prop := Guarded step fun _ _ => True

variable {step : S → A → Option S} {guard : S → A → Prop}

/-- The induction rule: what one guarded step preserves, a guarded run preserves. -/
theorem Guarded.invariant {inv : S → Prop}
    (hstep : ∀ s a s', inv s → guard s a → step s a = some s' → inv s') {s s' : S} {as : List A}
    (h : Guarded step guard s as s') (hs : inv s) : inv s' := by
  induction h with
  | nil s => exact hs
  | cons hg ha _ ih => exact ih (hstep _ _ _ hs hg ha)

/-- A measure that grows by one with each label of a kind counts the labels of that kind. -/
theorem Guarded.counts {inv : S → Prop} {measure : S → ℕ} {kind : A → Bool}
    (hstep : ∀ s a s', inv s → guard s a → step s a = some s' →
      inv s' ∧ measure s' = measure s + if kind a = true then 1 else 0)
    {s s' : S} {as : List A} (h : Guarded step guard s as s') (hs : inv s) :
    measure s' = measure s + as.countP kind := by
  induction h with
  | nil s => rfl
  | cons hg ha _ ih =>
    obtain ⟨hinv, hmeasure⟩ := hstep _ _ _ hs hg ha
    rw [ih hinv, hmeasure, List.countP_cons]
    omega

lemma Guarded.append {s s' s'' : S} {as bs : List A} (h : Guarded step guard s as s')
    (g : Guarded step guard s' bs s'') : Guarded step guard s (as ++ bs) s'' := by
  induction h with
  | nil s => exact g
  | cons hg ha _ ih => exact .cons hg ha (ih g)

/-- A run passes through the state between two parts of its labels. -/
lemma Guarded.split {s s'' : S} {as bs : List A} (h : Guarded step guard s (as ++ bs) s'') :
    ∃ s', Guarded step guard s as s' ∧ Guarded step guard s' bs s'' := by
  induction as generalizing s with
  | nil => exact ⟨s, .nil s, h⟩
  | cons a as ih =>
    cases h with
    | cons hg hs hr =>
      obtain ⟨s', has, hbs⟩ := ih hr
      exact ⟨s', .cons hg hs has, hbs⟩

/-- Steps that another system takes as well, under a condition of its own. -/
lemma Guarded.embed {step' : S → A → Option S} {guard' : S → A → Prop}
    (hstep : ∀ s a s', guard s a → step s a = some s' → guard' s a ∧ step' s a = some s') {s s' : S}
    {as : List A} (h : Guarded step guard s as s') : Guarded step' guard' s as s' := by
  induction h with
  | nil s => exact .nil s
  | cons hg ha _ ih =>
    obtain ⟨hg', ha'⟩ := hstep _ _ _ hg ha
    exact .cons hg' ha' ih

/-- Weaker conditions admit more runs. -/
lemma Guarded.mono {guard' : S → A → Prop} (hle : ∀ s a, guard s a → guard' s a) {s s' : S}
    {as : List A} (h : Guarded step guard s as s') : Guarded step guard' s as s' :=
  h.embed fun _ _ _ hg ha => ⟨hle _ _ hg, ha⟩

/-- What every label of a run meets may be asked of its steps. -/
lemma Guarded.and_labels {good : A → Prop} {s s' : S} {as : List A} (h : Guarded step guard s as s')
    (hall : ∀ a ∈ as, good a) : Guarded step (fun s a => good a ∧ guard s a) s as s' := by
  induction h with
  | nil s => exact .nil s
  | cons hg ha _ ih =>
    exact .cons ⟨hall _ List.mem_cons_self, hg⟩ ha (ih fun a hmem => hall a (List.mem_cons_of_mem _ hmem))

/-- A run carries over to another system if each of its steps either shows nothing and is left
out, or is taken there too; `seen` is what a label shows. -/
theorem Guarded.project {T E : Type*} {step' : T → A → Option T} {R : S → T → Prop} {keep : A → Prop}
    {seen : A → List E}
    (hstep : ∀ s a s' t, R s t → guard s a → step s a = some s' →
      (R s' t ∧ seen a = []) ∨ ∃ t', keep a ∧ step' t a = some t' ∧ R s' t')
    {s s' : S} {as : List A} (h : Guarded step guard s as s') {t : T} (hR : R s t) :
    ∃ bs t', Guarded step' (fun _ a => keep a) t bs t' ∧ bs.flatMap seen = as.flatMap seen ∧
      R s' t' := by
  induction h generalizing t with
  | nil s => exact ⟨[], t, .nil t, rfl, hR⟩
  | @cons s s₁ s₂ a as hg ha _ ih =>
    rcases hstep _ _ _ _ hR hg ha with ⟨hR', hnone⟩ | ⟨t₁, hkeep, ht, hR'⟩
    · obtain ⟨bs, t', hrun, hseen, hlast⟩ := ih hR'
      exact ⟨bs, t', hrun, by simp [hnone, hseen], hlast⟩
    · obtain ⟨bs, t', hrun, hseen, hlast⟩ := ih hR'
      exact ⟨a :: bs, t', .cons hkeep ht hrun, by simp [hseen], hlast⟩

/-- Follow a list of labels from `s`, checking the guard on the way. -/
def follow (step : S → A → Option S) (guard : S → A → Prop) [∀ s a, Decidable (guard s a)] :
    S → List A → Option S
  | s, [] => some s
  | s, a :: as => if guard s a then (step s a).bind (follow step guard · as) else none

lemma Guarded.of_follow [∀ s a, Decidable (guard s a)] {s s' : S} {as : List A}
    (h : follow step guard s as = some s') : Guarded step guard s as s' := by
  induction as generalizing s with
  | nil =>
    cases h
    exact .nil _
  | cons a as ih =>
    simp only [follow] at h
    split at h
    next hg =>
      obtain ⟨s₁, hs₁, hrest⟩ := Option.bind_eq_some_iff.mp h
      exact .cons hg hs₁ (ih hrest)
    · cases h

/-- A step that is never refused runs through any list of labels. -/
lemma Guarded.of_total {next : S → A → S} (hstep : ∀ s a, step s a = some (next s a)) {s : S}
    {as : List A} (h : ∀ n (hn : n < as.length), guard ((as.take n).foldl next s) (as.get ⟨n, hn⟩)) :
    Guarded step guard s as (as.foldl next s) := by
  induction as generalizing s with
  | nil => exact .nil s
  | cons a as ih =>
    refine .cons (h 0 (by simp)) (hstep s a) (ih fun n hn => ?_)
    exact h (n + 1) (by simpa using hn)

end PicoV9k.Runs
