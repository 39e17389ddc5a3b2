import PicoV9k.DmaTransfer

/-!
# Calls of the DMA engine

The batches cover the buffer once, in order; every call ends with the bus given
back, and what it leaves in the record is sound.
-/
namespace PicoV9k.Dma
open PicoV9k.Bus PicoV9k.Pio PicoV9k.Scripts PicoV9k.Runs

lemma fullBatchCount_eq (length : Word) : fullBatchCount length = (length.toNat + 127) % 2 ^ 32 / 128 := by
  simp [fullBatchCount]

/-- The batches reach the whole buffer, or, where the count wraps, nothing of it. -/
lemma covered_eq (c : Call) :
    c.covered = if c.length.toNat ≤ 2 ^ 32 - 128 then c.length.toNat else 0 := by
  have hlt := c.length.isLt
  rw [Call.covered, fullBatchCount_eq]
  unfold dmaBatchSize
  split
  next h =>
    rw [Nat.mod_eq_of_lt (by omega)]
    omega
  next h =>
    have hwrap : (c.length.toNat + 127) % 2 ^ 32 = c.length.toNat + 127 - 2 ^ 32 := by
      rw [Nat.mod_eq_sub_mod (by omega), Nat.mod_eq_of_lt (by omega)]
    rw [hwrap, Nat.div_eq_of_lt (by omega)]
    omega

/-- A batch starts inside the buffer. -/
lemma batch_starts {length : Word} {b : ℕ} (h : b < fullBatchCount length) :
    dmaBatchSize * b < length.toNat := by
  have hlt := length.isLt
  rw [fullBatchCount_eq] at h
  unfold dmaBatchSize
  have hmod : (length.toNat + 127) % 2 ^ 32 ≤ length.toNat + 127 := Nat.mod_le _ _
  have hmul : b * 128 + 128 ≤ (length.toNat + 127) % 2 ^ 32 := by
    have := (Nat.lt_div_iff_mul_lt (by decide)).mp h
    omega
  omega

lemma batchIndex_eq {length : Word} {b i : ℕ} (h : dmaBatchSize * b + i ≤ length.toNat) :
    batchIndex b i = dmaBatchSize * b + i := by
  have hlt := length.isLt
  unfold batchIndex dmaBatchSize at *
  rw [Nat.mod_eq_of_lt (by omega), Nat.mul_comm]

/-- The bytes that the first `b` batches move. -/
def Call.moved (c : Call) (b : ℕ) : ℕ := min c.length.toNat (dmaBatchSize * b)

/-- The batch is over after `i` bytes. -/
def Call.BatchEnds (c : Call) (b i : ℕ) : Prop :=
  i ≤ dmaBatchSize ∧ dmaBatchSize * b + i ≤ c.length.toNat ∧
    (i = dmaBatchSize ∨ c.length.toNat ≤ dmaBatchSize * b + i)

lemma Call.BatchEnds.moved {c : Call} {b i : ℕ} (h : c.BatchEnds b i) :
    dmaBatchSize * b + i = c.moved (b + 1) := by
  obtain ⟨hi, hle, hend⟩ := h
  unfold Call.moved dmaBatchSize at *
  rcases hend with hend | hend <;> omega

lemma writeBatch_outline {c : Call} {b : ℕ} (hwrite : c.write = true)
    (hb : dmaBatchSize * b < c.length.toNat) :
    Outline (onBus c b (2 * (dmaBatchSize * b)) []) (writeBatch c.byte c.length c.start b)
      (fun stuck => if stuck then abortPoint else onBus c b (2 * c.moved (b + 1)) []) := by
  refine Script.Triple.consequence (Script.Triple.iterate (fun i : ℕ =>
    (onBus c b (2 * (dmaBatchSize * b + i)) []).assuming
      (i ≤ dmaBatchSize ∧ dmaBatchSize * b + i ≤ c.length.toNat)) 0 fun i => ?_)
    (fun s hs => ⟨⟨Nat.zero_le _, Nat.le_of_lt hb⟩, hs⟩) fun _ _ h => h
  refine Script.Triple.assuming fun hi => ?_
  have hindex := batchIndex_eq hi.2
  by_cases hmore : i < dmaBatchSize
  · simp only [if_pos hmore, hindex]
    by_cases hend : c.length.toNat ≤ dmaBatchSize * b + i
    · rw [if_pos hend]
      refine Script.Triple.ret fun s hs => ?_
      have hmoved := Call.BatchEnds.moved (c := c) (b := b) (i := i) ⟨hi.1, hi.2, .inr hend⟩
      show (onBus c b (2 * c.moved (b + 1)) []).holds s
      rw [← hmoved]
      exact hs
    · rw [if_neg hend]
      have hfirst : fifoT1 (victorAddr c.start (dmaBatchSize * b + i)) true =
          c.word (2 * (dmaBatchSize * b + i)) := by rw [Call.word_even, hwrite]
      have hsecond : fifoT2Write (victorAddr c.start (dmaBatchSize * b + i)) (c.byte (dmaBatchSize * b + i)) =
          c.word (2 * (dmaBatchSize * b + i) + 1) := by rw [Call.word_odd, if_pos hwrite]
      rw [hfirst, hsecond]
      refine Script.Triple.bind (pioSmPutTimeout_outline (by unfold dmaBatchSize at *; omega)) fun first => ?_
      cases first with
      | false => exact Script.Triple.ret fun _ h => h
      | true =>
        refine Script.Triple.bind (pioSmPutTimeout_outline (by unfold dmaBatchSize at *; omega)) fun second => ?_
        cases second with
        | false => exact Script.Triple.ret fun _ h => h
        | true => exact Script.Triple.ret fun s hs => ⟨⟨hmore, by omega⟩, hs⟩
  · rw [if_neg hmore]
    refine Script.Triple.ret fun s hs => ?_
    have hmoved := Call.BatchEnds.moved (c := c) (b := b) (i := i) ⟨hi.1, hi.2, .inl (by omega)⟩
    show (onBus c b (2 * c.moved (b + 1)) []).holds s
    rw [← hmoved]
    exact hs

/-- After a call that succeeded, or that failed with its timeout in the log. -/
def afterCall (c : Call) (ok : Bool) (got : List Byte) : EnginePoint :=
  if ok then offPoint (fun card => Books c c.covered got card ∧ Idle card) false
  else (offPoint (fun card => Failed card ∧ Idle card) false).assuming (c.covered ≠ 0)

lemma dmaWriteToVictorRam_outline {c : Call} (hwrite : c.write = true) (hdata : c.data ≠ none) :
    Outline (offPoint (fun card => Books c 0 [] card ∧ Idle card) false)
      (dmaWriteToVictorRam c.data c.length c.start) (fun ok => afterCall c ok []) := by
  obtain ⟨data, hsome⟩ := Option.ne_none_iff_exists'.mp hdata
  have hbyte : c.byte = data := by simp [Call.byte, hsome]
  rw [hsome, ← hbyte]
  unfold dmaWriteToVictorRam
  by_cases hempty : c.length = 0
  · simp only [if_pos hempty]
    refine Script.Triple.ret fun s hs => ?_
    have hcovered : c.covered = 0 := by simp [Call.covered, hempty]
    rw [afterCall, if_pos rfl, hcovered]
    exact hs
  · simp only [if_neg hempty]
    refine Script.Triple.consequence (Script.Triple.iterate (fun b : ℕ =>
      (offPoint (fun card => Books c (c.moved b) [] card ∧ Idle card) false).assuming
        (b ≤ fullBatchCount c.length)) 0 fun b => ?_)
      (fun s hs => ⟨Nat.zero_le _, by simpa [Call.moved] using hs⟩) fun _ _ h => h
    refine Script.Triple.assuming fun hb => ?_
    by_cases hmore : b < fullBatchCount c.length
    · simp only [if_pos hmore]
      have hstart := batch_starts hmore
      have hmoved : c.moved b = dmaBatchSize * b := Nat.min_eq_right (Nat.le_of_lt hstart)
      have hreached : c.covered ≠ 0 := by
        unfold Call.covered dmaBatchSize at *
        omega
      rw [hmoved]
      refine Script.Triple.bind startDmaControl_outline fun started => ?_
      cases started with
      | false => exact Script.Triple.ret fun _ h => ⟨hreached, h⟩
      | true =>
        refine Script.Triple.bind (writeBatch_outline hwrite hstart) fun stuck => ?_
        cases stuck with
        | true => exact Script.Triple.bind abortDmaTransfer_outline fun _ =>
            Script.Triple.ret fun _ h => ⟨hreached, h⟩
        | false =>
          refine Script.Triple.bind (pollUntil_onBus anything_monotone (fun _ _ => trivial) id) fun drained => ?_
          cases drained with
          | false => exact Script.Triple.bind abortDmaTransfer_outline fun _ =>
            Script.Triple.ret fun _ h => ⟨hreached, h⟩
          | true =>
            refine Script.Triple.bind (settle_outline fun hread => ?_) fun _ => ?_
            · exact absurd (hwrite.symm.trans hread) (by decide)
            · refine Script.Triple.bind releaseDmaMaster_outline fun _ => ?_
              exact Script.Triple.ret fun s hs => ⟨hmore, hs⟩
    · simp only [if_neg hmore]
      have hall : b = fullBatchCount c.length := by omega
      rw [hall]
      exact Script.Triple.ret fun _ h => h

/-- The first `n` bytes of a buffer. -/
def taken (n : ℕ) (data : ℕ → Byte) : List Byte := (List.range n).map data

lemma taken_update (n : ℕ) (data : ℕ → Byte) (byte : Byte) :
    taken (n + 1) (Function.update data n byte) = taken n data ++ [byte] := by
  unfold taken
  rw [List.range_succ, List.map_append, List.map_singleton, Function.update_self]
  congr 1
  refine List.map_congr_left fun i hi => ?_
  exact Function.update_of_ne (Nat.ne_of_lt (List.mem_range.mp hi)) _ _

lemma readBatch_outline {c : Call} {b : ℕ} {data : ℕ → Byte} (hread : c.write = false)
    (hb : dmaBatchSize * b < c.length.toNat) :
    Outline (onBus c b (2 * (dmaBatchSize * b)) (taken (dmaBatchSize * b) data))
      (readBatch data c.length c.start b)
      (fun r => if r.1 then abortPoint
        else onBus c b (2 * c.moved (b + 1)) (taken (c.moved (b + 1)) r.2)) := by
  refine Script.Triple.consequence (Script.Triple.iterate (fun loc : ℕ × (ℕ → Byte) =>
    (onBus c b (2 * (dmaBatchSize * b + loc.1)) (taken (dmaBatchSize * b + loc.1) loc.2)).assuming
      (loc.1 ≤ dmaBatchSize ∧ dmaBatchSize * b + loc.1 ≤ c.length.toNat)) (0, data) fun loc => ?_)
    (fun s hs => ⟨⟨Nat.zero_le _, Nat.le_of_lt hb⟩, hs⟩) fun _ _ h => h
  obtain ⟨i, data⟩ := loc
  refine Script.Triple.assuming fun hi => ?_
  have hindex := batchIndex_eq hi.2
  by_cases hmore : i < dmaBatchSize
  · simp only [if_pos hmore, hindex]
    by_cases hend : c.length.toNat ≤ dmaBatchSize * b + i
    · rw [if_pos hend]
      refine Script.Triple.ret fun s hs => ?_
      have hmoved := Call.BatchEnds.moved (c := c) (b := b) (i := i) ⟨hi.1, hi.2, .inr hend⟩
      show (onBus c b (2 * c.moved (b + 1)) (taken (c.moved (b + 1)) data)).holds s
      rw [← hmoved]
      exact hs
    · rw [if_neg hend]
      have hfirst : fifoT1 (victorAddr c.start (dmaBatchSize * b + i)) false =
          c.word (2 * (dmaBatchSize * b + i)) := by rw [Call.word_even, hread]
      have hsecond : fifoT2Read = c.word (2 * (dmaBatchSize * b + i) + 1) := by
        rw [Call.word_odd, hread, if_neg Bool.false_ne_true]
      rw [hfirst, hsecond]
      refine Script.Triple.bind (pioSmPutTimeout_outline (by unfold dmaBatchSize at *; omega)) fun first => ?_
      cases first with
      | false => exact Script.Triple.ret fun _ h => h
      | true =>
        refine Script.Triple.bind (pioSmPutTimeout_outline (by unfold dmaBatchSize at *; omega)) fun second => ?_
        cases second with
        | false => exact Script.Triple.ret fun _ h => h
        | true =>
          refine Script.Triple.bind pioSmGetTimeout_outline fun charData => ?_
          cases charData with
          | none => exact Script.Triple.ret fun _ h => h
          | some word =>
            refine Script.Triple.ret fun s hs => ⟨⟨hmore, by omega⟩, ?_⟩
            show (onBus c b (2 * (dmaBatchSize * b + i + 1)) (taken (dmaBatchSize * b + i + 1)
              (Function.update data (dmaBatchSize * b + i) (word.setWidth 8)))).holds s
            rw [taken_update]
            exact hs
  · rw [if_neg hmore]
    refine Script.Triple.ret fun s hs => ?_
    have hmoved := Call.BatchEnds.moved (c := c) (b := b) (i := i) ⟨hi.1, hi.2, .inl (by omega)⟩
    show (onBus c b (2 * c.moved (b + 1)) (taken (c.moved (b + 1)) data)).holds s
    rw [← hmoved]
    exact hs

lemma dmaReadFromVictorRam_outline {c : Call} (hread : c.write = false) (hdata : c.data ≠ none) :
    Outline (offPoint (fun card => Books c 0 [] card ∧ Idle card) false)
      (dmaReadFromVictorRam c.data c.length c.start) (fun r => afterCall c r.1 (taken c.covered r.2)) := by
  obtain ⟨data, hsome⟩ := Option.ne_none_iff_exists'.mp hdata
  rw [hsome]
  unfold dmaReadFromVictorRam
  by_cases hempty : c.length = 0
  · simp only [if_pos hempty]
    refine Script.Triple.ret fun s hs => ?_
    have hcovered : c.covered = 0 := by simp [Call.covered, hempty]
    rw [afterCall, if_pos rfl, hcovered]
    exact hs
  · simp only [if_neg hempty]
    refine Script.Triple.consequence (Script.Triple.iterate (fun loc : ℕ × (ℕ → Byte) =>
      (offPoint (fun card => Books c (c.moved loc.1) (taken (c.moved loc.1) loc.2) card ∧ Idle card)
        false).assuming (loc.1 ≤ fullBatchCount c.length)) (0, data) fun loc => ?_)
      (fun s hs => ⟨Nat.zero_le _, by simpa [Call.moved, taken] using hs⟩) fun _ _ h => h
    obtain ⟨b, data⟩ := loc
    refine Script.Triple.assuming fun hb => ?_
    by_cases hmore : b < fullBatchCount c.length
    · simp only [if_pos hmore]
      have hstart := batch_starts hmore
      have hmoved : c.moved b = dmaBatchSize * b := Nat.min_eq_right (Nat.le_of_lt hstart)
      have hreached : c.covered ≠ 0 := by
        unfold Call.covered dmaBatchSize at *
        omega
      rw [hmoved]
      refine Script.Triple.bind startDmaControl_outline fun started => ?_
      cases started with
      | false => exact Script.Triple.ret fun _ h => ⟨hreached, h⟩
      | true =>
        refine Script.Triple.bind (readBatch_outline hread hstart) fun r => ?_
        obtain ⟨stuck, data⟩ := r
        cases stuck with
        | true => exact Script.Triple.bind abortDmaTransfer_outline fun _ =>
            Script.Triple.ret fun _ h => ⟨hreached, h⟩
        | false =>
          refine Script.Triple.bind (pollUntil_onBus anything_monotone (fun _ _ => trivial) id) fun drained => ?_
          cases drained with
          | false => exact Script.Triple.bind abortDmaTransfer_outline fun _ =>
            Script.Triple.ret fun _ h => ⟨hreached, h⟩
          | true =>
            refine Script.Triple.bind (settle_outline fun _ => ?_) fun _ => ?_
            · rw [taken, List.length_map, List.length_range]
            · refine Script.Triple.bind releaseDmaMaster_outline fun _ => ?_
              exact Script.Triple.ret fun s hs => ⟨hmore, hs⟩
    · simp only [if_neg hmore]
      have hall : b = fullBatchCount c.length := by omega
      rw [hall]
      exact Script.Triple.ret fun _ h => h

/-- The cycles are those of the call, with the bytes that were read. -/
lemma cycles_eq {c : Call} {n : ℕ} {cycles : List BusCycle} {data : ℕ → Byte}
    (hshapes : cycles.map BusCycle.shape = (List.range n).map fun i => (c.write, c.addr i, c.driven i))
    (hbytes : c.write = false → cycles.map BusCycle.byte = taken n data) :
    cycles = (List.range n).map fun i => c.cycle i (data i) := by
  have hlen : cycles.length = n := by
    have := congrArg List.length hshapes
    simpa using this
  refine List.ext_getElem (by simp [hlen]) fun i hi hi' => ?_
  have hin : i < n := hlen ▸ hi
  have hshape : cycles[i].shape = (c.write, c.addr i, c.driven i) := by
    have := congrArg (·[i]?) hshapes
    simpa [hi, hin] using this
  rw [List.getElem_map, List.getElem_range, Call.cycle]
  cases hwrite : c.write with
  | true =>
    rw [hwrite] at hshape
    cases hcycle : cycles[i] with
    | write latched driven =>
      rw [hcycle] at hshape
      cases hshape
      rfl
    | read latched driven byte =>
      rw [hcycle] at hshape
      cases hshape
  | false =>
    have hbyte : cycles[i].byte = data i := by
      have := congrArg (·[i]?) (hbytes hwrite)
      simpa [taken, hi, hin] using this
    rw [hwrite] at hshape
    cases hcycle : cycles[i] with
    | write latched driven =>
      rw [hcycle] at hshape
      cases hshape
    | read latched driven byte =>
      rw [hcycle] at hshape hbyte
      cases hshape
      cases hbyte
      rfl

lemma Books.entry {c : Call} {card : Card} {data : ℕ → Byte} {got : List Byte}
    (h : Books c c.covered got card) (hdata : c.data ≠ none)
    (hgot : c.write = false → got = taken c.covered data) :
    Entry.Sound ⟨c, true, data, card.tenures, card.cycles, card.timeouts, card.resumes⟩ := by
  refine ⟨h.small, fun _ => hdata, fun _ hok => absurd hok.symm Bool.false_ne_true,
    fun _ => ⟨fun _ => h.timeouts, fun _ => rfl⟩,
    fun _ => h.words, fun _ hclean => ?_⟩
  obtain ⟨hshapes, hbytes, -⟩ := h.done hclean
  exact cycles_eq hshapes fun hread => (hbytes hread).trans (hgot hread)

lemma Failed.entry {c : Call} {card : Card} {data : ℕ → Byte} (h : Failed card) (hc : c.covered ≠ 0) :
    Entry.Sound ⟨c, false, data, card.tenures, card.cycles, card.timeouts, card.resumes⟩ := by
  refine ⟨h.small, fun hok => absurd hok Bool.false_ne_true, fun _ _ => hc,
    fun _ => ⟨fun hok => absurd hok Bool.false_ne_true, fun hall => ?_⟩,
    fun hok => absurd hok Bool.false_ne_true, fun hok => absurd hok Bool.false_ne_true⟩
  obtain ⟨w, hw, hbad⟩ := h.timeouts
  exact absurd (hall w hw) hbad

/-- The card between two calls. -/
abbrev idlePoint : EnginePoint := offPoint Idle false

lemma record_outline {P : Card → Prop} {c : Call} {ok : Bool} {data : ℕ → Byte}
    (hidle : ∀ card, P card → Idle card)
    (hsound : ∀ card, P card →
      Entry.Sound ⟨c, ok, data, card.tenures, card.cycles, card.timeouts, card.resumes⟩) :
    Outline (offPoint P false) (update (Card.record · c ok data)) (fun _ => idlePoint) := by
  refine update_outline (fun _ => Nat.le_refl _) fun s hs => ?_
  obtain ⟨hoff, hP, hkept, -⟩ := hs
  have h := hidle _ hP
  refine ⟨hoff, ⟨⟨h.tx, h.rx, h.regEnabled, h.pending, h.tenure⟩, h.hold, h.granted⟩, ?_,
    fun h => absurd h Bool.false_ne_true⟩
  intro e he
  rcases List.mem_append.mp he with he | he
  · exact hkept e he
  · rw [List.mem_singleton.mp he]
    exact hsound s.card hP

lemma afterCall_record {c : Call} {ok : Bool} {data : ℕ → Byte} {got : List Byte} (hdata : c.data ≠ none)
    (hgot : c.write = false → got = taken c.covered data) :
    Outline (afterCall c ok got) (update (Card.record · c ok data)) (fun _ => idlePoint) := by
  cases ok with
  | true =>
    show Outline (offPoint (fun card => Books c c.covered got card ∧ Idle card) false) _ _
    exact record_outline (fun _ h => h.2) fun _ h => h.1.entry hdata hgot
  | false =>
    refine Script.Triple.assuming fun hc => ?_
    exact record_outline (fun _ (h : Failed _ ∧ Idle _) => h.2) fun _ h => h.1.entry hc

lemma begin_outline (c : Call) : Outline idlePoint (update Card.begin)
    (fun _ => offPoint (fun card => Books c 0 [] card ∧ Idle card) false) := by
  refine update_outline (fun _ => Nat.le_refl _) fun s hs => ?_
  obtain ⟨hoff, h, hkept, hseen⟩ := hs
  refine ⟨hoff, ⟨⟨fun t ht => absurd ht List.not_mem_nil, rfl, fun w hw => absurd hw List.not_mem_nil,
    fun _ => ⟨rfl, rfl, rfl⟩, fun _ => ⟨rfl, fun _ => rfl, fun hr => absurd rfl hr⟩⟩,
    ⟨h.tx, h.rx, h.regEnabled, fun hr => absurd rfl hr, rfl⟩, h.hold, h.granted⟩, hkept,
    fun h => absurd h Bool.false_ne_true⟩

/-- A call without a buffer does nothing. -/
lemma null_record {c : Call} {data : ℕ → Byte} (hdata : c.data = none) :
    Outline (offPoint (fun card => Books c 0 [] card ∧ Idle card) false)
      (update (Card.record · c false data)) (fun _ => idlePoint) := by
  refine record_outline (fun _ h => h.2) fun card h => ?_
  exact ⟨h.1.small, fun hok => absurd hok Bool.false_ne_true, fun hsome => absurd hdata hsome,
    fun hsome => absurd hdata hsome, fun hok => absurd hok Bool.false_ne_true, fun hok => absurd hok Bool.false_ne_true⟩

lemma callBody_outline (c : Call) : Outline idlePoint (callBody c) (fun _ => idlePoint) := by
  refine Script.Triple.bind (begin_outline c) fun _ => ?_
  cases hwrite : c.write with
  | true =>
    by_cases hdata : c.data = none
    · rw [hdata]
      exact Script.Triple.bind (m := fun ok => (offPoint (fun card => Books c 0 [] card ∧ Idle card)
        false).assuming (ok = false)) (Script.Triple.ret fun _ h => ⟨rfl, h⟩) fun ok =>
        Script.Triple.assuming fun hok => hok ▸ null_record hdata
    · refine Script.Triple.bind (dmaWriteToVictorRam_outline hwrite hdata) fun ok => ?_
      exact afterCall_record hdata fun hread => absurd (hwrite.symm.trans hread) (by decide)
  | false =>
    by_cases hdata : c.data = none
    · rw [hdata]
      exact Script.Triple.bind (m := fun r => (offPoint (fun card => Books c 0 [] card ∧ Idle card)
        false).assuming (r.1 = false)) (Script.Triple.ret fun _ h => ⟨rfl, h⟩) fun r =>
        Script.Triple.assuming fun hok => hok ▸ null_record hdata
    · refine Script.Triple.bind (dmaReadFromVictorRam_outline hwrite hdata) fun r => ?_
      exact afterCall_record hdata fun _ => rfl

abbrev EngineRun : Machine Engine → List (Move Call Event) → Machine Engine → Prop := Run engineStep

/-- The engine at power-up. -/
def engine : Machine Engine := ⟨Engine.initial, .ret ()⟩

/-- The engine runs its calls as they are outlined. -/
def Steady (m : Machine Engine) : Prop :=
  m.Verified Rely PushesOwned Kept idlePoint.holds

lemma engine_steady : Steady engine := by
  have hidle : idlePoint.holds Engine.initial :=
    ⟨rfl, ⟨⟨rfl, rfl, rfl, fun h => absurd rfl h, rfl⟩, rfl, rfl⟩, fun _ he => absurd he List.not_mem_nil,
      fun h => absurd h Bool.false_ne_true⟩
  have hreturn : Outline idlePoint (pure ()) (fun _ => idlePoint) := Script.Triple.ret fun _ h => h
  exact hreturn Engine.initial hidle

lemma run_steady {m : Machine Engine} {moves : List (Move Call Event)} (h : EngineRun engine moves m) :
    Steady m := by
  refine Machine.run_verified (fun c s hs => callBody_outline c s hs)
    (h.mono fun _ move _ => ?_) engine_steady
  cases move <;> trivial

end PicoV9k.Dma
