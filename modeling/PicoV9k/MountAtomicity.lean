import PicoV9k.StorageOwnership

/-!
# Failed mounts

What a target serves, and exactly when a mount that fails leaves every target
serving what it served before.
-/
namespace PicoV9k.Storage
open PicoV9k.Bus

/-- What the host gets from a target: the backend, and while the target is mounted
the image with its access mode. -/
structure Service where
  backend : Backend
  mounted : Bool
  image : Option (Path × Bool)
  capacity : ℕ
  deriving DecidableEq

/-- The open SD file or the ESP slot binding behind a target. -/
def Media.boundImage (m : Media) (t : ℕ) : Backend → Option (Path × Bool)
  | .none => none
  | .fujinet => (m.fuji.slots t).served
  | .sdcard => (m.sd.targets t).file.map fun f => (f.path, (m.sd.targets t).readOnly)

def service (st : Routing Media) (t : ℕ) : Service where
  backend := st.targetBackend t
  mounted := storageIsMounted cardRegistry st t
  image :=
    if storageIsMounted cardRegistry st t then st.media.boundImage t (st.targetBackend t) else none
  capacity := storageGetCapacity cardRegistry st t

/-- A recovery brings target `x` back as it was. -/
def SdTarget.Survives (x : SdTarget) (mount : FResult) (answer : FResult × ℕ) : Prop :=
  if mount = .ok then
    answer.1 = .ok ∧ x.file.map (·.path) = some x.imagePath ∧ answer.2 / 512 = x.capacitySectors
  else x.file = none

instance (x : SdTarget) (mount : FResult) (answer : FResult × ℕ) :
    Decidable (x.Survives mount answer) := by
  unfold SdTarget.Survives
  infer_instance

/-- The named target has nothing to lose, and if the open ends in a recovery then
every other mounted target survives it. -/
def SdKeeps (io : SdIo) (s : SdState) (routed : ℕ → Prop) (t : ℕ) : Prop :=
  (routed t → (s.targets t).mounted = false) ∧
    (io.open1.1.isMissing = false →
      ∀ u < storageMaxTargets, u ≠ t → routed u → (s.targets u).mounted = true →
        (s.targets u).Survives io.remount.mount (io.remount.reopen u))

/-- Mounting all slots changes nothing that target `u` serves. -/
def EspSlot.Settled (x : EspSlot) : Prop := x.configured = none ∨ x.configured = x.served

/-- What the ESP applied before the failure: nothing, or requests that leave each
mounted target's slot as it was. -/
def FujiKeeps (io : FujiIo) (s : FujiState) (routed : ℕ → Prop) (t : ℕ) (image : Path)
    (readOnly : Bool) : Prop :=
  if image = [] then
    io.mountAll.applied = true →
      ∀ u < storageMaxTargets, routed u → (s.targets u).mounted = true → (s.slots u).Settled
  else if fujiStat io image = none ∨ io.unmountSlot.applied = false then True
  else if io.unmountSlot.ok = true ∧ io.setFullpath.ok = true ∧ io.mountAll.applied = true then
    (routed t → (s.targets t).mounted = true → (s.slots t).served = some (image, readOnly)) ∧
      ∀ u < storageMaxTargets, u ≠ t → routed u → (s.targets u).mounted = true → (s.slots u).Settled
  else routed t → (s.targets t).mounted = true → (s.slots t).served = none

/-- The condition for a whole `storage_mount_on`, on the state before it and the
answers of the outside world. -/
def MountKeeps (ioInit io : StorageIo) (st : Routing Media) (b : Backend) (t : ℕ) (image : Path)
    (readOnly : Bool) : Prop :=
  t < storageMaxTargets →
    match b with
    | .none => True
    | .sdcard =>
      st.media.sd.initialized = true → SdKeeps io.sd st.media.sd (st.targetBackend · = .sdcard) t
    | .fujinet =>
      st.backendInited .fujinet = true ∨ ioInit.fuji.ping = true →
        FujiKeeps io.fuji st.media.fuji (st.targetBackend · = .fujinet) t image readOnly

lemma service_unrouted {st : Routing Media} {u : ℕ} (h : opsForTarget cardRegistry st u = none) :
    service st u = ⟨st.targetBackend u, false, none, 0⟩ := by
  simp [service, storageIsMounted, storageGetCapacity, h]

/-- The part of an SD target that its host can notice. -/
def SdTarget.view (x : SdTarget) : Bool × Option (Path × Bool) × ℕ :=
  if x.mounted then (true, x.file.map fun f => (f.path, x.readOnly), x.capacitySectors)
  else (false, none, 0)

lemma service_sdcard_ops {st : Routing Media} {u : ℕ} (hu : u < storageMaxTargets)
    (hroute : st.targetBackend u = .sdcard) :
    service st u =
      ⟨.sdcard, sdStorageIsMounted st.media.sd u,
        if sdStorageIsMounted st.media.sd u then
          (st.media.sd.targets u).file.map fun f => (f.path, (st.media.sd.targets u).readOnly)
        else none,
        sdStorageGetCapacity st.media.sd u⟩ := by
  have hge : ¬ storageMaxTargets ≤ u := Nat.not_le.mpr hu
  simp [service, storageIsMounted, storageGetCapacity, opsForTarget, hge, hroute, cardRegistry, sdOps,
    Media.boundImage]

lemma service_sdcard {st : Routing Media} {u : ℕ} (hu : u < storageMaxTargets)
    (hroute : st.targetBackend u = .sdcard) (hinit : st.media.sd.initialized = true) :
    service st u =
      ⟨.sdcard, (st.media.sd.targets u).view.1, (st.media.sd.targets u).view.2.1,
        (st.media.sd.targets u).view.2.2⟩ := by
  have hge : ¬ storageMaxTargets ≤ u := Nat.not_le.mpr hu
  rw [service_sdcard_ops hu hroute]
  cases hm : (st.media.sd.targets u).mounted <;>
    simp [hge, sdStorageIsMounted, sdStorageGetCapacity, hinit, SdTarget.view, hm]

lemma service_fujinet {st : Routing Media} {u : ℕ} (hu : u < storageMaxTargets)
    (hroute : st.targetBackend u = .fujinet) :
    service st u =
      ⟨.fujinet, (st.media.fuji.targets u).mounted,
        if (st.media.fuji.targets u).mounted then (st.media.fuji.slots u).served else none,
        if (st.media.fuji.targets u).mounted then (st.media.fuji.targets u).capacitySectors else 0⟩ := by
  have hge : ¬ storageMaxTargets ≤ u := Nat.not_le.mpr hu
  cases hm : (st.media.fuji.targets u).mounted <;>
    simp [service, storageIsMounted, storageGetCapacity, opsForTarget, hge, hroute, cardRegistry,
      fujiOps, fujiStorageIsMounted, fujiStorageGetCapacity, Media.boundImage, hm]

lemma service_invalid {st st' : Routing Media} {u : ℕ}
    (hroute : st'.targetBackend u = st.targetBackend u)
    (hnone : storageMaxTargets ≤ u ∨ st.targetBackend u = .none) : service st' u = service st u := by
  have hops : opsForTarget cardRegistry st u = none := by
    rcases hnone with hge | hnone
    · simp [opsForTarget, hge]
    · simp [opsForTarget, hnone]
  have hops' : opsForTarget cardRegistry st' u = none := by
    simpa only [opsForTarget, hroute] using hops
  rw [service_unrouted hops, service_unrouted hops', hroute]

/-- A change of the SD state is visible on the targets routed to it only. -/
lemma service_sd_iff {st st' : Routing Media} (hroute : st'.targetBackend = st.targetBackend)
    (hfuji : st'.media.fuji = st.media.fuji) (hinit : st.media.sd.initialized = true)
    (hinit' : st'.media.sd.initialized = true) :
    (∀ u, service st' u = service st u) ↔
      ∀ u < storageMaxTargets, st.targetBackend u = .sdcard →
        (st'.media.sd.targets u).view = (st.media.sd.targets u).view := by
  constructor
  · intro h u hu hsd
    have hu' := h u
    rw [service_sdcard hu hsd hinit, service_sdcard hu (hroute ▸ hsd) hinit'] at hu'
    simp only [Service.mk.injEq, true_and] at hu'
    exact Prod.ext hu'.1 (Prod.ext hu'.2.1 hu'.2.2)
  · intro h u
    rcases Nat.lt_or_ge u storageMaxTargets with hu | hge
    · cases hb : st.targetBackend u with
      | none => exact service_invalid (congrFun hroute u) (.inr hb)
      | fujinet =>
        rw [service_fujinet hu hb, service_fujinet hu (hroute ▸ hb), hfuji]
      | sdcard =>
        rw [service_sdcard hu hb hinit, service_sdcard hu (hroute ▸ hb) hinit', h u hu hb]
    · exact service_invalid (congrFun hroute u) (.inl hge)

/-- A change of the ESP slots is visible on the mounted targets routed to FujiNet only. -/
lemma service_fuji_iff {st st' : Routing Media} (hroute : st'.targetBackend = st.targetBackend)
    (hsd : st'.media.sd = st.media.sd)
    (htargets : st'.media.fuji.targets = st.media.fuji.targets) :
    (∀ u, service st' u = service st u) ↔
      ∀ u < storageMaxTargets, st.targetBackend u = .fujinet →
        (st.media.fuji.targets u).mounted = true →
          (st'.media.fuji.slots u).served = (st.media.fuji.slots u).served := by
  constructor
  · intro h u hu hb hm
    have hu' := h u
    rw [service_fujinet hu hb, service_fujinet hu (hroute ▸ hb)] at hu'
    simp only [Service.mk.injEq, true_and, htargets, hm, ↓reduceIte] at hu'
    exact hu'.1
  · intro h u
    rcases Nat.lt_or_ge u storageMaxTargets with hu | hge
    · cases hb : st.targetBackend u with
      | none => exact service_invalid (congrFun hroute u) (.inr hb)
      | sdcard =>
        rw [service_sdcard_ops hu hb, service_sdcard_ops hu (hroute ▸ hb), hsd]
      | fujinet =>
        rw [service_fujinet hu hb, service_fujinet hu (hroute ▸ hb), htargets]
        cases hm : (st.media.fuji.targets u).mounted with
        | false => rfl
        | true => simp [h u hu hb hm]
    · exact service_invalid (congrFun hroute u) (.inl hge)

lemma SdTarget.view_unmounted {x : SdTarget} (h : x.mounted = false) : x.view = (false, none, 0) := by
  simp [SdTarget.view, h]

lemma SdTarget.view_eq_iff_of_unmounted {x y : SdTarget} (h : y.mounted = false) :
    y.view = x.view ↔ x.mounted = false := by
  rw [SdTarget.view_unmounted h]
  cases hx : x.mounted <;> simp [SdTarget.view, hx]

lemma sdMountBase_named {s : SdState} {t : ℕ} (hinit : s.initialized = true)
    (ht : t < storageMaxTargets) : ((sdMountBase s t).targets t).mounted = false := by
  unfold sdMountBase
  cases hm : (s.targets t).mounted with
  | false => simpa using hm
  | true => simp [sdStorageUnmount, hinit, Nat.not_le.mpr ht, hm, SdState.setTarget]

/-- The recovery keeps what a mounted target serves exactly when the target survives it. -/
lemma sdStorageTryRemount_view (io : RemountIo) {s : SdState} {u : ℕ} (hlive : s.live u = true) :
    ((sdStorageTryRemount io s).1.targets u).view = (s.targets u).view ↔
      (s.targets u).Survives io.mount (io.reopen u) := by
  have hm := SdState.mounted_of_live hlive
  rw [sdStorageTryRemount_target]
  simp only [hlive, ↓reduceIte, SdTarget.Survives]
  split
  · unfold SdTarget.reopen
    split
    next hok =>
      cases hf : (s.targets u).file with
      | none => simp [SdTarget.view, hm, hf]
      | some f =>
        simp only [SdTarget.view, hm, hf, ↓reduceIte, Option.map_some, Prod.mk.injEq, true_and,
          Option.some.injEq, and_true, hok]
        exact and_congr_left fun _ => eq_comm
    next hno => simp [SdTarget.view, hm, hno]
  · cases hf : (s.targets u).file <;> simp [SdTarget.view, hm, hf]

/-- What a failed `sd_storage_mount` leaves of the services. -/
lemma sdStorageMount_failed {io : SdIo} {s : SdState} {routed : ℕ → Prop} {t : ℕ} {image : Path}
    {readOnly : Bool} (hinit : s.initialized = true) (ht : t < storageMaxTargets)
    (hfail : (sdStorageMount io s t image readOnly).2 = false) :
    (∀ u < storageMaxTargets, routed u →
        ((sdStorageMount io s t image readOnly).1.targets u).view = (s.targets u).view) ↔
      SdKeeps io s routed t := by
  have hnamed := sdMountBase_named hinit ht
  rcases sdStorageMount_cases io s t image readOnly with
    ⟨_, hcase⟩ | ⟨_, _, ⟨hne, heq⟩ | ⟨_, heq⟩⟩
  · rw [hinit] at hcase
    rcases hcase with hcase | hcase
    · cases hcase
    · omega
  · rw [heq]
    -- the named target is unmounted first, the others only meet the recovery
    have hview : ∀ u < storageMaxTargets,
        ((sdOpenImage io (sdMountBase s t)).1.targets u).view = (s.targets u).view ↔
          if u = t then (s.targets t).mounted = false
          else io.open1.1.isMissing = false → (s.targets u).mounted = true →
            (s.targets u).Survives io.remount.mount (io.remount.reopen u) := by
      intro u hu
      by_cases hfirst : io.open1.1 = .ok ∨ io.open1.1.isMissing = true
      · rw [sdOpenImage_answers hfirst]
        have hmiss : io.open1.1.isMissing = true := by
          apply hfirst.resolve_left
          intro hok
          exact hne ((congrArg (·.2.1) (sdOpenImage_answers hfirst)).trans hok)
        split
        next hut =>
          subst hut
          exact SdTarget.view_eq_iff_of_unmounted hnamed
        next hut => simp [sdMountBase_target_ne hut, hmiss]
      · have hmiss : io.open1.1.isMissing = false := by simpa using (not_or.mp hfirst).2
        rw [sdOpenImage_remounts hfirst]
        split
        next hut =>
          subst hut
          have hdead : (sdMountBase s u).live u = false := by simp [SdState.live, hnamed]
          rw [sdStorageTryRemount_target]
          simp only [hdead, Bool.false_eq_true, ↓reduceIte]
          exact SdTarget.view_eq_iff_of_unmounted hnamed
        next hut =>
          have hsame : (sdMountBase s t).targets u = s.targets u := sdMountBase_target_ne hut
          cases hm : (s.targets u).mounted with
          | false =>
            have hdead : (sdMountBase s t).live u = false := by simp [SdState.live, hsame, hm]
            rw [sdStorageTryRemount_target]
            simp [hdead, hsame]
          | true =>
            have hlive : (sdMountBase s t).live u = true := by simp [SdState.live, hsame, hm, hu]
            have hiff := sdStorageTryRemount_view io.remount hlive
            rw [hsame] at hiff
            rw [hiff]
            simp [hmiss]
    constructor
    · intro h
      refine ⟨fun hr => ?_, fun hmiss u hu hut hr hm => ?_⟩
      · simpa using (hview t ht).mp (h t ht hr)
      · have := (hview u hu).mp (h u hu hr)
        rw [if_neg hut] at this
        exact this hmiss hm
    · intro h u hu hr
      apply (hview u hu).mpr
      split
      next hut => exact h.1 (hut ▸ hr)
      next hut => exact fun hmiss hm => h.2 hmiss u hu hut hr hm
  · rw [heq] at hfail
    cases hfail

/-- A slot once all configured slots are mounted. -/
lemma EspSlot.served_iff (x : EspSlot) :
    (match x.configured with
      | none => x
      | some image => { x with served := some image }).served = x.served ↔ x.Settled := by
  cases hc : x.configured with
  | none => simp [EspSlot.Settled, hc]
  | some image => simp [EspSlot.Settled, hc]

lemma fujiMountAll_served (io : FujiIo) (s : FujiState) (u : ℕ) (h : io.mountAll.applied = true) :
    ((fujiMountAll io s).1.slots u).served = (s.slots u).served ↔ (s.slots u).Settled := by
  simp only [fujiMountAll, h, ↓reduceIte]
  exact EspSlot.served_iff (s.slots u)

/-- The state in which a mount of `image` reaches MOUNT_ALL. -/
def fujiSelected (s : FujiState) (t : ℕ) (image : Path) (readOnly : Bool) : FujiState :=
  s.setSlot t ⟨some (image, readOnly), none⟩

/-- How `fuji_storage_mount` of a named image fails. -/
lemma fujiStorageMount_named_failed {io : FujiIo} {s : FujiState} {t : ℕ} {image : Path}
    {readOnly : Bool} (ht : t < storageMaxTargets) (himage : image ≠ [])
    (hfail : (fujiStorageMount io s t image readOnly).2 = false) :
    (fujiStat io image = none ∧ (fujiStorageMount io s t image readOnly).1 = s) ∨
      (fujiStat io image ≠ none ∧ io.unmountSlot.ok = false ∧
        (fujiStorageMount io s t image readOnly).1 = (fujiUnmountSlot io s t).1) ∨
      (fujiStat io image ≠ none ∧ io.unmountSlot.ok = true ∧ io.setFullpath.ok = false ∧
        ∀ u, ((fujiStorageMount io s t image readOnly).1.slots u).served =
          if u = t then none else (s.slots u).served) ∨
      (fujiStat io image ≠ none ∧ io.unmountSlot.ok = true ∧ io.setFullpath.ok = true ∧
        (fujiStorageMount io s t image readOnly).1 =
          (fujiMountAll io (fujiSelected s t image readOnly)).1) := by
  have hge : ¬ storageMaxTargets ≤ t := Nat.not_le.mpr ht
  cases hstat : fujiStat io image with
  | none =>
    left
    simp [fujiStorageMount, hge, himage, hstat]
  | some size =>
    right
    have hlen : ¬ fujiPathLen ≤ image.length := by
      intro hlen
      have hlen' : fujiPathLen - 2 ≤ image.length := (Nat.sub_le _ _).trans hlen
      simp [fujiStat, hlen'] at hstat
    cases hun : io.unmountSlot.ok with
    | false =>
      left
      simp [fujiStorageMount, hge, himage, hstat, fujiSelectImage, hlen, fujiUnmountSlot, hun]
    | true =>
      right
      have hun' := TxResult.applied_of_ok hun
      cases hset : io.setFullpath.ok with
      | false =>
        left
        refine ⟨by simp, rfl, rfl, fun u => ?_⟩
        simp only [fujiStorageMount, hge, ↓reduceIte, himage, hstat, fujiSelectImage, hlen,
          fujiUnmountSlot, hun, hun', hset]
        rcases eq_or_ne u t with rfl | hne
        · cases io.setFullpath.applied <;> simp [FujiState.setSlot]
        · cases io.setFullpath.applied <;> simp [FujiState.setSlot, hne]
      | true =>
        right
        have hset' := TxResult.applied_of_ok hset
        refine ⟨by simp, rfl, rfl, ?_⟩
        have hselect : fujiSelectImage io s t image readOnly =
            (fujiSelected s t image readOnly, true) := by
          simp [fujiSelectImage, hlen, fujiUnmountSlot, hun, hun', hset, hset', FujiState.setSlot,
            fujiSelected]
        simp only [fujiStorageMount, hge, ↓reduceIte, himage, hstat, hselect] at hfail ⊢
        split at hfail
        next s' hs' => simp only [hs']
        · cases hfail

/-- What a failed `fuji_storage_mount` leaves of the services. -/
lemma fujiStorageMount_failed {io : FujiIo} {s : FujiState} {routed : ℕ → Prop} {t : ℕ}
    {image : Path} {readOnly : Bool} (ht : t < storageMaxTargets)
    (hfail : (fujiStorageMount io s t image readOnly).2 = false) :
    (∀ u < storageMaxTargets, routed u → (s.targets u).mounted = true →
        ((fujiStorageMount io s t image readOnly).1.slots u).served = (s.slots u).served) ↔
      FujiKeeps io s routed t image readOnly := by
  have hge : ¬ storageMaxTargets ≤ t := Nat.not_le.mpr ht
  unfold FujiKeeps
  by_cases himage : image = []
  · have hstate : (fujiStorageMount io s t image readOnly).1 = (fujiMountAll io s).1 := by
      simp only [fujiStorageMount, hge, ↓reduceIte, himage] at hfail ⊢
      split at hfail
      next s' hs' => simp only [hs']
      · cases hfail
    rw [if_pos himage, hstate]
    cases happlied : io.mountAll.applied with
    | false => simp [fujiMountAll, happlied]
    | true => simp only [fujiMountAll_served io s _ happlied, true_implies]
  · rw [if_neg himage]
    rcases fujiStorageMount_named_failed ht himage hfail with
      ⟨hstat, heq⟩ | ⟨hstat, hun, heq⟩ | ⟨hstat, hun, hset, hserved⟩ | ⟨hstat, hun, hset, heq⟩
    · simp [hstat, heq]
    · cases happlied : io.unmountSlot.applied with
      | false => simp [heq, fujiUnmountSlot, happlied]
      | true =>
        simp only [hstat, hun, heq, fujiUnmountSlot, happlied, FujiState.setSlot]
        simp only [Bool.true_eq_false, or_self, ↓reduceIte, Bool.false_eq_true, false_and]
        constructor
        · intro h hr hm
          simpa [eq_comm] using h t ht hr hm
        · intro h u hu hr hm
          rcases eq_or_ne u t with rfl | hne
          · simpa using (h hr hm).symm
          · simp [hne]
    · simp only [hstat, hun, hset, hserved, TxResult.applied_of_ok hun, Bool.true_eq_false, or_self,
        ↓reduceIte, Bool.false_eq_true, false_and, and_false]
      constructor
      · intro h hr hm
        simpa [eq_comm] using h t ht hr hm
      · intro h u hu hr hm
        rcases eq_or_ne u t with rfl | hne
        · simpa using (h hr hm).symm
        · simp [hne]
    · have hun' := TxResult.applied_of_ok hun
      cases happlied : io.mountAll.applied with
      | false =>
        simp only [hstat, hun, hset, heq, hun', fujiMountAll, happlied, fujiSelected,
          FujiState.setSlot, Bool.true_eq_false, or_self, ↓reduceIte, Bool.false_eq_true, and_false]
        constructor
        · intro h hr hm
          simpa [eq_comm] using h t ht hr hm
        · intro h u hu hr hm
          rcases eq_or_ne u t with rfl | hne
          · simpa using (h hr hm).symm
          · simp [hne]
      | true =>
        simp only [hstat, hun, hset, heq, hun', Bool.true_eq_false, or_self, ↓reduceIte, and_self]
        have hnamed : ((fujiMountAll io (fujiSelected s t image readOnly)).1.slots t).served =
            some (image, readOnly) := by
          simp [fujiMountAll, happlied, fujiSelected, FujiState.setSlot]
        have hother : ∀ u, u ≠ t →
            (((fujiMountAll io (fujiSelected s t image readOnly)).1.slots u).served =
              (s.slots u).served ↔ (s.slots u).Settled) := by
          intro u hne
          have hiff := fujiMountAll_served io (fujiSelected s t image readOnly) u happlied
          simpa [fujiSelected, FujiState.setSlot, hne] using hiff
        constructor
        · intro h
          refine ⟨fun hr hm => ?_, fun u hu hne hr hm => (hother u hne).mp (h u hu hr hm)⟩
          exact (h t ht hr hm).symm.trans hnamed
        · intro h u hu hr hm
          rcases eq_or_ne u t with rfl | hne
          · exact hnamed.trans (h.1 hr hm).symm
          · exact (hother u hne).mpr (h.2 u hu hne hr hm)

/-- A service is read off the routing table and the media. -/
lemma service_media {st st' : Routing Media} (hroute : st'.targetBackend = st.targetBackend)
    (hmedia : st'.media = st.media) (u : ℕ) : service st' u = service st u := by
  obtain ⟨_, _, route, m⟩ := st
  obtain ⟨_, _, route', m'⟩ := st'
  cases hroute
  cases hmedia
  rfl

lemma backendEnsureInited_route (io : StorageIo) (st : Routing Media) (b : Backend) :
    (backendEnsureInited cardRegistry io st b).1.targetBackend = st.targetBackend := by
  unfold backendEnsureInited
  dsimp only
  split
  · rfl
  · split
    · rfl
    · split
      · rfl
      · split <;> rfl

/-- A failed mount stops at the initialisation or at the backend's own mount. -/
lemma storageMountOn_failed {ioInit io : StorageIo} {st : Routing Media} {b : Backend} {t : ℕ}
    {image : Path} {readOnly : Bool} {ops : StorageOps StorageIo Media} (ht : t < storageMaxTargets)
    (hops : cardRegistry b = some ops)
    (hfail : (storageMountOn cardRegistry ioInit io st b t image readOnly).2 = false) :
    ((backendEnsureInited cardRegistry ioInit st b).2 = false ∧
        (storageMountOn cardRegistry ioInit io st b t image readOnly).1 =
          (backendEnsureInited cardRegistry ioInit st b).1) ∨
      ((backendEnsureInited cardRegistry ioInit st b).2 = true ∧
        (ops.mount io (backendEnsureInited cardRegistry ioInit st b).1.media t image readOnly).2 = false ∧
        (storageMountOn cardRegistry ioInit io st b t image readOnly).1.targetBackend =
          st.targetBackend ∧
        (storageMountOn cardRegistry ioInit io st b t image readOnly).1.media =
          (ops.mount io (backendEnsureInited cardRegistry ioInit st b).1.media t image readOnly).1) := by
  have hroute := backendEnsureInited_route ioInit st b
  have hge : ¬ storageMaxTargets ≤ t := Nat.not_le.mpr ht
  unfold storageMountOn at *
  rw [if_neg hge] at *
  generalize backendEnsureInited cardRegistry ioInit st b = r at *
  obtain ⟨st₁, inited⟩ := r
  cases inited with
  | false => exact .inl ⟨rfl, rfl⟩
  | true =>
    right
    simp only [hops, Bool.not_true, Bool.false_eq_true, ↓reduceIte] at hfail ⊢
    cases hok : (ops.mount io st₁.media t image readOnly).2 with
    | false => exact ⟨trivial, rfl, by simpa [hok] using hroute, by simp⟩
    | true => simp [hok] at hfail

/-- An initialised SD backend stays as it is. -/
lemma backendEnsureInited_sd_ready (io : StorageIo) {st : Routing Media}
    (hinit : st.media.sd.initialized = true) :
    (backendEnsureInited cardRegistry io st .sdcard).2 = true ∧
      (backendEnsureInited cardRegistry io st .sdcard).1.media = st.media := by
  cases hb : st.backendInited .sdcard <;>
    simp [backendEnsureInited, hb, cardRegistry, sdOps, Media.onSd, sdStorageInit, hinit]

/-- The SD backend before its first successful initialisation, or right after it. -/
lemma backendEnsureInited_sd_fresh {io : StorageIo} {st : Routing Media}
    (hinit : st.media.sd.initialized = false) :
    (backendEnsureInited cardRegistry io st .sdcard).1.media = st.media ∨
      ((backendEnsureInited cardRegistry io st .sdcard).1.media.sd.initialized = true ∧
        (backendEnsureInited cardRegistry io st .sdcard).1.media.sd.targets = (fun _ => .initial) ∧
        (backendEnsureInited cardRegistry io st .sdcard).1.media.fuji = st.media.fuji) := by
  cases hb : st.backendInited .sdcard with
  | true => simp [backendEnsureInited, hb]
  | false =>
    simp only [backendEnsureInited, hb, cardRegistry, sdOps, Media.onSd, sdStorageInit, hinit,
      reduceCtorEq, ↓reduceIte, Bool.false_eq_true]
    cases io.sd.alloc with
    | false => simp
    | true => by_cases hm : io.sd.initMount = .ok <;> simp [hm]

/-- No SD target serves anything before the backend is initialised. -/
lemma service_sdcard_fresh {st : Routing Media} {u : ℕ} (hu : u < storageMaxTargets)
    (hroute : st.targetBackend u = .sdcard) (hinit : st.media.sd.initialized = false) :
    service st u = ⟨.sdcard, false, none, 0⟩ := by
  rw [service_sdcard_ops hu hroute]
  simp [sdStorageIsMounted, sdStorageGetCapacity, hinit]

/-- Initialising the SD backend, and nothing mounted since, changes no service. -/
lemma service_sd_fresh {st st' : Routing Media} (hroute : st'.targetBackend = st.targetBackend)
    (hfuji : st'.media.fuji = st.media.fuji) (hinit : st.media.sd.initialized = false)
    (hinit' : st'.media.sd.initialized = true)
    (hview : ∀ u < storageMaxTargets, (st'.media.sd.targets u).view = (false, none, 0)) (u : ℕ) :
    service st' u = service st u := by
  rcases Nat.lt_or_ge u storageMaxTargets with hu | hge
  · cases hb : st.targetBackend u with
    | none => exact service_invalid (congrFun hroute u) (.inr hb)
    | fujinet => rw [service_fujinet hu hb, service_fujinet hu (hroute ▸ hb), hfuji]
    | sdcard =>
      rw [service_sdcard_fresh hu hb hinit, service_sdcard hu (hroute ▸ hb) hinit', hview u hu]
  · exact service_invalid (congrFun hroute u) (.inl hge)

lemma storageMountOn_sd_fresh {ioInit io : StorageIo} {st : Routing Media} {t : ℕ} {image : Path}
    {readOnly : Bool} (ht : t < storageMaxTargets) (hinit : st.media.sd.initialized = false)
    (hfail : (storageMountOn cardRegistry ioInit io st .sdcard t image readOnly).2 = false) (u : ℕ) :
    service (storageMountOn cardRegistry ioInit io st .sdcard t image readOnly).1 u = service st u := by
  have hroute := backendEnsureInited_route ioInit st .sdcard
  rcases backendEnsureInited_sd_fresh hinit with hmedia | ⟨hinit₁, htargets, hfuji⟩
  · rcases storageMountOn_failed ht rfl hfail with ⟨_, heq⟩ | ⟨_, _, hroute', heq⟩
    · rw [heq]
      exact service_media hroute hmedia u
    · apply service_media hroute'
      rw [heq, hmedia]
      simp [sdOps, Media.onSd, sdStorageMount, hinit]
  · rcases storageMountOn_failed ht rfl hfail with ⟨_, heq⟩ | ⟨_, hmount, hroute', heq⟩
    · rw [heq]
      refine service_sd_fresh hroute hfuji hinit hinit₁ (fun u _ => ?_) u
      rw [htargets]
      rfl
    · have hidle : ∀ u, ((backendEnsureInited cardRegistry ioInit st .sdcard).1.media.sd.targets
          u).mounted = false := by
        intro u
        rw [htargets]
        rfl
      have hkeeps : SdKeeps io.sd (backendEnsureInited cardRegistry ioInit st .sdcard).1.media.sd
          (fun _ => True) t := by
        refine ⟨fun _ => hidle t, fun _ u _ _ _ hm => ?_⟩
        rw [hidle u] at hm
        cases hm
      have hview := (sdStorageMount_failed hinit₁ ht hmount).mpr hkeeps
      refine service_sd_fresh hroute' (by rw [heq]; exact hfuji) hinit ?_ (fun u hu => ?_) u
      · rw [heq]
        exact (sdStorageMount_initialized _ _ _ _ _).trans hinit₁
      · rw [heq]
        exact (hview u hu trivial).trans (SdTarget.view_unmounted (hidle u))

lemma backendEnsureInited_fuji (io : StorageIo) (st : Routing Media) :
    (backendEnsureInited cardRegistry io st .fujinet).1.media = st.media ∧
      ((backendEnsureInited cardRegistry io st .fujinet).2 = true ↔
        st.backendInited .fujinet = true ∨ io.fuji.ping = true) := by
  cases hb : st.backendInited .fujinet <;> cases hp : io.fuji.ping <;>
    simp [backendEnsureInited, hb, hp, cardRegistry, fujiOps, Media.onFuji, fujiStorageInit]

/-- A failed mount leaves every target serving what it served before exactly when
it had nothing to lose. -/
theorem storageMountOn_atomic_iff {ioInit io : StorageIo} {st : Routing Media} {b : Backend} {t : ℕ}
    {image : Path} {readOnly : Bool}
    (hfail : (storageMountOn cardRegistry ioInit io st b t image readOnly).2 = false) :
    (∀ u, service (storageMountOn cardRegistry ioInit io st b t image readOnly).1 u = service st u) ↔
      MountKeeps ioInit io st b t image readOnly := by
  rcases Nat.lt_or_ge t storageMaxTargets with ht | hge
  · simp only [MountKeeps, ht, true_implies]
    cases b with
    | none => simp [storageMountOn, backendEnsureInited]
    | sdcard =>
      cases hinit : st.media.sd.initialized with
      | false => simpa using storageMountOn_sd_fresh ht hinit hfail
      | true =>
        simp only [true_implies]
        obtain ⟨hok, hmedia⟩ := backendEnsureInited_sd_ready ioInit hinit
        rcases storageMountOn_failed ht rfl hfail with ⟨hno, _⟩ | ⟨_, hmount, hroute, heq⟩
        · exact absurd (hok.symm.trans hno) (by decide)
        · rw [hmedia] at heq hmount
          have hsd := congrArg Media.sd heq
          have hfuji : (storageMountOn cardRegistry ioInit io st .sdcard t image
              readOnly).1.media.fuji = st.media.fuji := by
            rw [heq]
            rfl
          have hinit' := (sdStorageMount_initialized io.sd st.media.sd t image readOnly).trans hinit
          rw [service_sd_iff hroute hfuji hinit ((congrArg _ hsd).trans hinit'),
            hsd]
          exact sdStorageMount_failed hinit ht hmount
    | fujinet =>
      obtain ⟨hmedia, hiff⟩ := backendEnsureInited_fuji ioInit st
      rcases storageMountOn_failed ht rfl hfail with ⟨hno, heq⟩ | ⟨hok, hmount, hroute, heq⟩
      · have hnot : ¬(st.backendInited .fujinet = true ∨ ioInit.fuji.ping = true) := by
          rw [← hiff, hno]
          decide
        simp only [hnot, false_implies, iff_true]
        intro u
        rw [heq]
        exact service_media (backendEnsureInited_route ioInit st .fujinet) hmedia u
      · simp only [hiff.mp hok, true_implies]
        rw [hmedia] at heq hmount
        have hfuji := congrArg Media.fuji heq
        have hsd : (storageMountOn cardRegistry ioInit io st .fujinet t image readOnly).1.media.sd =
            st.media.sd := by
          rw [heq]
          rfl
        have htargets : (fujiStorageMount io.fuji st.media.fuji t image readOnly).1.targets =
            st.media.fuji.targets := by
          rcases fujiStorageMount_targets io.fuji st.media.fuji t image readOnly with h | ⟨h, _⟩
          · exact h
          · exact absurd (h.symm.trans hmount) (by decide)
        rw [service_fuji_iff hroute hsd ((congrArg _ hfuji).trans htargets), hfuji]
        exact fujiStorageMount_failed ht hmount
  · have hstate : (storageMountOn cardRegistry ioInit io st b t image readOnly).1 = st := by
      simp [storageMountOn, hge]
    simp [hstate, MountKeeps, Nat.not_lt.mpr hge]

/-- The volume without a file of the given name. -/
def missingIo : StorageIo := ⟨{ readySd with open1 := (.noFile, 0) }, readyFuji⟩

/-- Target 0 mounted from the SD card, target 1 free. -/
def mountedCard : Routing Media :=
  callsFrom emptyCard [(.init .sdcard, readyIo), (.mountOn .sdcard 0 [97] false, readyIo)]

/-- A failed mount on the free target leaves both targets alone. -/
theorem storageMountOn_atomic_free :
    service (storageMountOn cardRegistry missingIo missingIo mountedCard .sdcard 1 [98] false).1 0 =
        ⟨.sdcard, true, some ([97], false), 2⟩ ∧
      service (storageMountOn cardRegistry missingIo missingIo mountedCard .sdcard 1 [98] false).1 1 =
        service mountedCard 1 := by
  have hkept : ∀ u, service (storageMountOn cardRegistry missingIo missingIo mountedCard
      .sdcard 1 [98] false).1 u = service mountedCard u := by
    refine (storageMountOn_atomic_iff rfl).mpr fun _ _ => ⟨fun hr => ?_, fun hmiss => ?_⟩
    · cases hr
    · cases hmiss
  exact ⟨(hkept 0).trans rfl, hkept 1⟩

/-- A missing file ejects the image that the named target served. -/
theorem storageMountOn_ejects :
    (storageMountOn cardRegistry missingIo missingIo mountedCard .sdcard 0 [98] false).2 = false ∧
      service mountedCard 0 = ⟨.sdcard, true, some ([97], false), 2⟩ ∧
      service (storageMountOn cardRegistry missingIo missingIo mountedCard .sdcard 0 [98] false).1 0 =
        ⟨.sdcard, false, none, 0⟩ := by
  exact ⟨rfl, rfl, rfl⟩

end PicoV9k.Storage
