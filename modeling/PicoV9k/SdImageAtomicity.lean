import PicoV9k.SdImages

/-!
# Whole images or none

A creation and a copy leave a complete image or no trace, as long as the file is closed
for good before it is unlinked.
-/
namespace PicoV9k.Storage
open PicoV9k.Bus PicoV9k.Runs

lemma writeAt_length {content data : List Byte} {pos : ℕ} (h : pos + data.length ≤ content.length) :
    (writeAt content pos data).length = content.length := by
  unfold writeAt
  rw [List.length_append, List.length_append, List.length_take, List.length_drop]
  omega

lemma writeAt_take {content data : List Byte} {pos : ℕ} (h : pos ≤ content.length) :
    (writeAt content pos data).take (pos + data.length) = content.take pos ++ data := by
  have hlen : (content.take pos ++ data).length = pos + data.length := by
    rw [List.length_append, List.length_take, Nat.min_eq_left h]
  unfold writeAt
  rw [← hlen, List.take_left]

/-- Sixteen full writes leave zeros in front. -/
lemma zeroRounds_zero (io : CreateIo) {left : ℕ} {content content' : List Byte} (hleft : left ≤ 16)
    (hlen : 65536 ≤ content.length)
    (hzero : content.take (4096 * (16 - left)) = List.replicate (4096 * (16 - left)) 0)
    (h : zeroRounds io left content = (content', none)) :
    content'.length = content.length ∧ content'.take 65536 = List.replicate 65536 0 := by
  induction left generalizing content with
  | zero =>
    obtain rfl : content = content' := by simpa [zeroRounds] using h
    exact ⟨rfl, hzero⟩
  | succ left ih =>
    unfold zeroRounds at h
    dsimp only at h
    split at h
    · exact absurd h (by simp)
    next hwrite =>
      have hcount : (io.write (16 - (left + 1))).2 = 4096 := by
        by_contra hne
        exact hwrite (.inr hne)
      rw [hcount, Nat.min_self] at h
      have hpos : 4096 * (16 - (left + 1)) + (List.replicate 4096 (0 : Byte)).length ≤ content.length := by
        rw [List.length_replicate]
        omega
      have hnext : 4096 * (16 - left) =
          4096 * (16 - (left + 1)) + (List.replicate 4096 (0 : Byte)).length := by
        rw [List.length_replicate]
        omega
      obtain ⟨hlength, htake⟩ := ih (by omega) (by rw [writeAt_length hpos]; exact hlen) (by
        rw [hnext, writeAt_take (by omega), hzero, List.length_replicate, List.replicate_append_replicate]) h
      rw [writeAt_length hpos] at hlength
      exact ⟨hlength, htake⟩

lemma createBody_whole (io : CreateIo) {bytes : ℕ} (hbytes : 65536 ≤ bytes) {content : List Byte}
    (h : createBody io bytes = (content, none)) :
    content.length = bytes ∧ content.take 65536 = List.replicate 65536 0 := by
  have hfill : ((List.range bytes).map io.fill).length = bytes := by
    rw [List.length_map, List.length_range]
  unfold createBody at h
  split at h
  · exact absurd h (by simp)
  · dsimp only at h
    split at h
    · exact absurd h (by simp)
    · obtain ⟨hlength, hzero⟩ := zeroRounds_zero io le_rfl (hfill.symm ▸ hbytes) rfl h
      exact ⟨hlength.trans hfill, hzero⟩

/-- The new image is whole, or the call fails and the files are as before. -/
def CreatedWhole (c : ImageCard) (name : Path) (sizeMb : ℕ) (r : ImageCard × Option String) : Prop :=
  match r.2 with
  | some _ => r.1.files = c.files
  | none => ∃ content, r.1.files = Function.update c.files name (some content) ∧
      content.length = sizeMb <<< 20 ∧ content.take 65536 = List.replicate 65536 0

/-- The call gets as far as creating the file. -/
def Creates (io : CreateIo) (c : ImageCard) (name : Path) (sizeMb : ℕ) : Prop :=
  c.ready = true ∧ matchesPattern name = true ∧ (1 ≤ sizeMb ∧ sizeMb ≤ 512) ∧
    c.createResult name io.open_ = .ok

lemma createResult_absent {c : ImageCard} {p : Path} {fr : FResult} (h : c.createResult p fr = .ok) :
    c.files p = none := by
  unfold ImageCard.createResult at h
  split at h
  · contradiction
  · split at h
    · exact absurd h (by simp)
    next habsent => simpa using habsent

lemma openResult_present {c : ImageCard} {p : Path} {fr : FResult} (h : c.openResult p fr = .ok) :
    (c.files p).isSome = true := by
  unfold ImageCard.openResult at h
  split at h
  · contradiction
  · split at h
    next hpresent => exact hpresent
    · exact absurd h (by simp)

/-- What a close leaves of a file that is being written, and what unlinking it then does. -/
lemma close_unlink {c : ImageCard} {p : Path} {content : Option (List Byte)} {a : CloseAnswer}
    (h : a.Ends) : ((((c.createNew p).setFile p content).close p a).unlink p).files =
      Function.update c.files p none := by
  cases a with
  | closed => simp [ImageCard.close, ImageCard.unlink, ImageCard.createNew, ImageCard.setFile, ImageCard.setLock]
  | ended left =>
    simp [ImageCard.close, ImageCard.unlink, ImageCard.createNew, ImageCard.setFile, ImageCard.setLock]
  | stuck left => exact h.elim

lemma close_stuck {c : ImageCard} {p : Path} {content : Option (List Byte)} (left : List Byte) :
    ((((c.createNew p).setFile p content).close p (.stuck left)).unlink p).files p = some left := by
  simp [ImageCard.close, ImageCard.unlink, ImageCard.createNew, ImageCard.setFile, ImageCard.setLock]

lemma sdStorageCreateImage_refused {io : CreateIo} {c : ImageCard} {name : Path} {sizeMb : ℕ}
    (h : ¬ Creates io c name sizeMb) : ∃ err, sdStorageCreateImage io c name sizeMb = (c, some err) := by
  unfold sdStorageCreateImage
  split
  · exact ⟨_, rfl⟩
  next hready =>
    split
    · exact ⟨_, rfl⟩
    next hname =>
      split
      · exact ⟨_, rfl⟩
      next hsize =>
        have hopen : c.createResult name io.open_ ≠ .ok := fun hok =>
          h ⟨by simpa using hready, by simpa using hname, by omega, hok⟩
        exact ⟨_, if_pos hopen⟩

lemma sdStorageCreateImage_opened {io : CreateIo} {c : ImageCard} {name : Path} {sizeMb : ℕ}
    (h : Creates io c name sizeMb) :
    sdStorageCreateImage io c name sizeMb =
      let body := createBody io (sizeMb <<< 20)
      let closed := ((c.createNew name).setFile name (some body.1)).close name io.close
      let err := if !io.close.ok ∧ body.2 = none then some "close failed" else body.2
      if err ≠ none then (closed.unlink name, err) else (closed, none) := by
  obtain ⟨hready, hname, hsize, hopen⟩ := h
  unfold sdStorageCreateImage
  rw [if_neg (by simp [hready]), if_neg (by simp [hname]), if_neg (by omega)]
  exact if_neg (not_not.mpr hopen)

/-- What a failure of the body or of the close makes of the result. -/
def createError (a : CloseAnswer) (err : Option String) : Option String :=
  if !a.ok ∧ err = none then some "close failed" else err

lemma createError_none {a : CloseAnswer} {err : Option String} (h : createError a err = none) :
    a = .closed ∧ err = none := by
  unfold createError at h
  split at h
  · exact absurd h (by simp)
  next hok =>
    rw [h] at hok
    cases a with
    | closed => exact ⟨rfl, h⟩
    | ended left => exact absurd ⟨rfl, rfl⟩ hok
    | stuck left => exact absurd ⟨rfl, rfl⟩ hok

/-- A creation is whole or without a trace exactly when the new file is closed for good. -/
lemma sdStorageCreateImage_whole_iff (io : CreateIo) (c : ImageCard) (name : Path) (sizeMb : ℕ) :
    CreatedWhole c name sizeMb (sdStorageCreateImage io c name sizeMb) ↔
      (Creates io c name sizeMb → io.close.Ends) := by
  by_cases hcreates : Creates io c name sizeMb
  · have habsent : c.files name = none := createResult_absent hcreates.2.2.2
    have hbytes : 65536 ≤ sizeMb <<< 20 := by
      have hsize := hcreates.2.2.1.1
      rw [Nat.shiftLeft_eq]
      omega
    have hwhole {content : List Byte} (h : createBody io (sizeMb <<< 20) = (content, none)) :=
      createBody_whole io hbytes h
    rw [sdStorageCreateImage_opened hcreates]
    generalize createBody io (sizeMb <<< 20) = body at hwhole
    obtain ⟨content, err⟩ := body
    show CreatedWhole c name sizeMb (if createError io.close err ≠ none then
      ((((c.createNew name).setFile name (some content)).close name io.close).unlink name,
        createError io.close err)
      else (((c.createNew name).setFile name (some content)).close name io.close, none)) ↔ _
    generalize io.close = a
    by_cases herr : createError a err = none
    · obtain ⟨rfl, rfl⟩ := createError_none herr
      rw [if_neg (not_not.mpr herr)]
      refine ⟨fun _ _ => trivial, fun _ => ⟨content, ?_, hwhole rfl⟩⟩
      simp [ImageCard.close, ImageCard.createNew, ImageCard.setFile, ImageCard.setLock]
    · rw [if_pos herr]
      obtain ⟨e, he⟩ := Option.ne_none_iff_exists'.mp herr
      rw [he]
      show ((((c.createNew name).setFile name (some content)).close name a).unlink name).files = c.files ↔ _
      constructor
      · intro hfiles _
        cases a with
        | closed => trivial
        | ended left => trivial
        | stuck left =>
          have hleft := congrFun hfiles name
          rw [close_stuck, habsent] at hleft
          exact absurd hleft (by simp)
      · intro hends
        rw [close_unlink (hends hcreates), ← habsent, Function.update_eq_self]
  · obtain ⟨err, heq⟩ := sdStorageCreateImage_refused hcreates
    rw [heq]
    exact ⟨fun _ h => absurd h hcreates, fun _ => rfl⟩

/-- The destination holds what has been copied of `source` so far. -/
structure Copying (source : List Byte) (c : ImageCard) (job : CopyJob) : Prop where
  origin : c.files job.src = some source
  copied : c.files job.dst = some (source.take job.pos)
  different : job.src ≠ job.dst
  bound : job.pos ≤ source.length

/-- How far a copy has got when a step ends. -/
def CopyEnds (source : List Byte) (job : CopyJob) (pos : ℕ) (r : ImageCard × CopyStep) : Prop :=
  match r.2 with
  | .more => r.1.job = some { job with pos := pos } ∧ Copying source r.1 { job with pos := pos }
  | .done => r.1.job = none ∧ r.1.files job.dst = some source
  | .failed _ => r.1.job = none ∧ r.1.files job.dst = none

/-- Nothing but the destination is touched. -/
def Leaves (c : ImageCard) (dst : Path) (r : ImageCard) : Prop := ∀ p ≠ dst, r.files p = c.files p

lemma ImageCard.close_leaves (c : ImageCard) (p : Path) (a : CloseAnswer) : Leaves c p (c.close p a) := by
  intro q hq
  cases a <;> simp [ImageCard.close, ImageCard.setFile, ImageCard.setLock, hq]

lemma ImageCard.unlink_leaves (c : ImageCard) (p : Path) : Leaves c p (c.unlink p) := by
  intro q hq
  unfold ImageCard.unlink
  split
  · rfl
  · simp [ImageCard.setFile, hq]

lemma Leaves.trans {c c' c'' : ImageCard} {p : Path} (h : Leaves c p c') (h' : Leaves c' p c'') :
    Leaves c p c'' := fun q hq => (h' q hq).trans (h q hq)

lemma ImageCard.setFile_leaves (c : ImageCard) (p : Path) (content : Option (List Byte)) :
    Leaves c p (c.setFile p content) := by
  intro q hq
  simp [ImageCard.setFile, hq]

/-- A file that is closed for good can be unlinked. -/
lemma ImageCard.close_unlink_gone (c : ImageCard) (p : Path) {a : CloseAnswer} (h : a.Ends) :
    ((c.close p a).unlink p).files p = none := by
  cases a with
  | closed => simp [ImageCard.close, ImageCard.unlink, ImageCard.setFile, ImageCard.setLock]
  | ended left => simp [ImageCard.close, ImageCard.unlink, ImageCard.setFile, ImageCard.setLock]
  | stuck left => exact h.elim

lemma sdCopyFinish_leaves (io : CopyIo) (c : ImageCard) (dst : Path) : Leaves c dst (sdCopyFinish io c dst) :=
  (c.close_leaves dst io.closeOut).trans (ImageCard.unlink_leaves _ dst)

lemma take_append_chunk (source : List Byte) (pos : ℕ) :
    source.take pos ++ (source.drop pos).take 4096 =
      source.take (pos + ((source.drop pos).take 4096).length) := by
  have hchunk : (source.drop pos).take 4096 =
      (source.drop pos).take ((source.drop pos).take 4096).length :=
    List.prefix_iff_eq_take.mp (List.take_prefix 4096 _)
  rw [List.take_add, ← hchunk]

/-- A step that fails leaves no destination. -/
lemma sdCopyFinish_ends {io : CopyIo} (hends : io.closeOut.Ends) (source : List Byte) (c : ImageCard)
    (job : CopyJob) (pos : ℕ) (err : String) :
    CopyEnds source job pos (sdCopyFinish io c job.dst, .failed err) :=
  ⟨rfl, c.close_unlink_gone job.dst hends⟩

lemma copyRounds_leaves (io : CopyIo) {dst : Path} (left : ℕ) (c : ImageCard) {job : CopyJob}
    (h : job.dst = dst) : Leaves c dst (copyRounds io left c job).1 := by
  induction left generalizing c job with
  | zero => exact fun p _ => rfl
  | succ left ih =>
    unfold copyRounds
    dsimp only
    rw [h]
    split
    · exact sdCopyFinish_leaves io c dst
    · split
      · split
        · exact c.close_leaves dst io.closeOut
        · exact (c.close_leaves dst io.closeOut).trans (ImageCard.unlink_leaves _ dst)
      · split
        · exact (c.setFile_leaves dst _).trans (sdCopyFinish_leaves io _ dst)
        · exact (c.setFile_leaves dst _).trans (ih _ rfl)

lemma sdStorageCopyStep_leaves (io : CopyIo) {c : ImageCard} {dst : Path}
    (h : ∀ job, c.job = some job → job.dst = dst) : Leaves c dst (sdStorageCopyStep io c).1 := by
  unfold sdStorageCopyStep
  cases hjob : c.job with
  | none => exact fun p _ => rfl
  | some job => exact copyRounds_leaves io 8 c (h job hjob)

lemma chunk_length (source : List Byte) (pos : ℕ) :
    ((source.drop pos).take 4096).length = min 4096 (source.length - pos) := by
  rw [List.length_take, List.length_drop]

/-- A chunk that was written whole. -/
lemma Copying.next {source : List Byte} {c : ImageCard} {job : CopyJob} (h : Copying source c job)
    {chunk : List Byte} (hchunk : (source.drop job.pos).take 4096 = chunk) :
    Copying source (c.setFile job.dst (some ((c.files job.dst).getD [] ++ chunk)))
      { job with pos := job.pos + chunk.length } := by
  have hbound := h.bound
  have hlength := chunk_length source job.pos
  rw [hchunk] at hlength
  rw [h.copied, Option.getD_some]
  refine ⟨?_, ?_, h.different, ?_⟩
  · exact (c.setFile_leaves job.dst _ job.src h.different).trans h.origin
  · rw [← hchunk, take_append_chunk]
    simp [ImageCard.setFile]
  · dsimp only
    omega

/-- The rounds of a step copy whole chunks while there are any. -/
lemma copyRounds_ends {io : CopyIo} (hends : io.closeOut.Ends) {source : List Byte} (left : ℕ)
    {c : ImageCard} {job : CopyJob} (h : Copying source c job) :
    CopyEnds source job (min (job.pos + 4096 * left) source.length) (copyRounds io left c job) ∧
      ((copyRounds io left c job).2 = .more → left = 0 ∨ job.pos + 4096 * (left - 1) < source.length) := by
  induction left generalizing c job with
  | zero =>
    have hpos : min (job.pos + 4096 * 0) source.length = job.pos := Nat.min_eq_left h.bound
    rw [hpos]
    exact ⟨⟨rfl, h.origin, h.copied, h.different, h.bound⟩, fun _ => .inl rfl⟩
  | succ left ih =>
    have hchunk : ((c.files job.src).getD []).drop job.pos = source.drop job.pos := by
      rw [h.origin, Option.getD_some]
    have hlength := chunk_length source job.pos
    have hbound := h.bound
    unfold copyRounds
    dsimp only
    rw [hchunk]
    generalize hdata : (source.drop job.pos).take 4096 = chunk at hlength
    split
    · exact ⟨sdCopyFinish_ends hends source c job _ _, fun hmore => absurd hmore (by simp)⟩
    · split
      next hempty =>
        -- the source is exhausted, so the destination holds all of it
        have hwhole : source.take job.pos = source := by
          rw [hempty, List.length_nil] at hlength
          exact List.take_of_length_le (by omega)
        split
        next hok =>
          have hclosed : io.closeOut = .closed := by
            cases hclose : io.closeOut with
            | closed => rfl
            | ended left => simp [hclose, CloseAnswer.ok] at hok
            | stuck left => simp [hclose, CloseAnswer.ok] at hok
          have hcopied := h.copied
          rw [hwhole] at hcopied
          rw [hclosed]
          exact ⟨⟨rfl, hcopied⟩, fun hmore => absurd hmore (by simp)⟩
        · exact ⟨⟨rfl, c.close_unlink_gone job.dst hends⟩, fun hmore => absurd hmore (by simp)⟩
      next hdataLeft =>
        have hpos : 0 < chunk.length := List.length_pos_of_ne_nil hdataLeft
        split
        · exact ⟨sdCopyFinish_ends hends source _ job _ _, fun hmore => absurd hmore (by simp)⟩
        next hwrite =>
          obtain ⟨hresult, hcount⟩ := not_or.mp hwrite
          rw [not_not] at hresult hcount
          rw [if_pos hresult, hcount, List.take_length]
          have hnext := h.next hdata
          obtain ⟨hcopy, hmore⟩ := ih hnext
          have hreach : min (job.pos + 4096 * (left + 1)) source.length =
              min (job.pos + chunk.length + 4096 * left) source.length := by omega
          rw [hreach]
          refine ⟨hcopy, fun hm => .inr ?_⟩
          obtain hzero | hroom := hmore hm
          · omega
          · dsimp only at hroom
            omega

/-- Nothing fails, in a file of whole chunks. -/
structure CopyIo.Smooth (io : CopyIo) : Prop where
  read : ∀ r, (io.rounds r).read = .ok
  write : ∀ r, (io.rounds r).write = (.ok, 4096)
  close : io.closeOut.ok = true

/-- Then a step ends the copy if fewer chunks are left than it has rounds. -/
lemma copyRounds_smooth {io : CopyIo} (hio : io.Smooth) {source : List Byte} (left : ℕ) {c : ImageCard}
    {job : CopyJob} (h : Copying source c job) {k : ℕ} (hk : job.pos + 4096 * k = source.length) :
    (copyRounds io left c job).2 = if k < left then .done else .more := by
  induction left generalizing c job k with
  | zero => rfl
  | succ left ih =>
    have hlength := chunk_length source job.pos
    have hchunk : ((c.files job.src).getD []).drop job.pos = source.drop job.pos := by
      rw [h.origin, Option.getD_some]
    unfold copyRounds
    simp only [hchunk, hio.read, hio.write, hio.close, ne_eq, not_true, if_false, if_true, false_or]
    generalize hdata : (source.drop job.pos).take 4096 = chunk at hlength
    cases k with
    | zero =>
      have hempty : chunk = [] := List.length_eq_zero_iff.mp (by omega)
      simp [hempty]
    | succ k =>
      have hfull : chunk.length = 4096 := by omega
      have hne : chunk ≠ [] := List.ne_nil_of_length_pos (by omega)
      have hrest := ih (h.next hdata) (k := k) (by dsimp only; omega)
      rw [if_neg hne, if_neg (by simp [hfull]), List.take_of_length_le (le_of_eq hfull), hrest]
      simp

/-- A copy under way or at its end: what its last step answered, and how many steps answered that
there is more. -/
structure CopyTrace where
  card : ImageCard
  last : CopyStep
  more : ℕ

/-- A step of the copy, or other work of the service loop on the card. -/
inductive CopyMove
  | step (io : CopyIo)
  | service (files : Path → Option (List Byte))

/-- Moves are made as long as the copy is active. -/
def copyMove (x : CopyTrace) (move : CopyMove) : Option CopyTrace :=
  if x.card.job = none then none
  else match move with
    | .step io =>
      let r := sdStorageCopyStep io x.card
      some ⟨r.1, r.2, if r.2 = .more then x.more + 1 else x.more⟩
    | .service files => some { x with card := { x.card with files := files } }

/-- The destination is closed for good, and open files are left alone by others. -/
def CopyMove.Admitted (src dst : Path) (x : CopyTrace) : CopyMove → Prop
  | .step io => io.closeOut.Ends
  | .service files => files src = x.card.files src ∧ files dst = x.card.files dst

/-- Where a copy of `source` stands. -/
structure CopyProgress (source : List Byte) (src dst : Path) (x : CopyTrace) : Prop where
  origin : x.card.files src = some source
  state : match x.last with
    | .more => x.card.job = some ⟨src, dst, min (32768 * x.more) source.length⟩ ∧
        Copying source x.card ⟨src, dst, min (32768 * x.more) source.length⟩
    | .done => x.card.job = none ∧ x.card.files dst = some source
    | .failed _ => x.card.job = none ∧ x.card.files dst = none
  steps : 32768 * x.more < source.length + 4096

lemma CopyProgress.step {source : List Byte} {src dst : Path} (hne : src ≠ dst) {x x' : CopyTrace}
    {move : CopyMove} (h : CopyProgress source src dst x) (hmove : move.Admitted src dst x)
    (hstep : copyMove x move = some x') : CopyProgress source src dst x' := by
  obtain ⟨card, last, more⟩ := x
  obtain ⟨horigin, hstate, hsteps⟩ := h
  dsimp only at horigin hstate hsteps
  unfold copyMove at hstep
  dsimp only at hstep
  split at hstep
  · exact absurd hstep (by simp)
  next hactive =>
    cases last with
    | failed err => exact absurd hstate.1 hactive
    | done => exact absurd hstate.1 hactive
    | more =>
      obtain ⟨hjob, hcopying⟩ := hstate
      cases move with
      | service files =>
        obtain ⟨hsrc, hdst⟩ := hmove
        dsimp only at hsrc hdst
        obtain rfl := Option.some.inj hstep
        exact ⟨hsrc.trans horigin, ⟨hjob, hsrc.trans hcopying.origin, hdst.trans hcopying.copied, hne,
          hcopying.bound⟩, hsteps⟩
      | step io =>
        have hrounds : sdStorageCopyStep io card =
            copyRounds io 8 card ⟨src, dst, min (32768 * more) source.length⟩ := by
          unfold sdStorageCopyStep
          rw [hjob]
        obtain ⟨hends, hmore⟩ := copyRounds_ends hmove 8 hcopying
        have hleaves : Leaves card dst (copyRounds io 8 card ⟨src, dst, min (32768 * more) source.length⟩).1 :=
          copyRounds_leaves io 8 card rfl
        dsimp only at hstep hends hleaves hmore
        rw [hrounds] at hstep
        obtain rfl := Option.some.inj hstep
        generalize copyRounds io 8 card ⟨src, dst, min (32768 * more) source.length⟩ = r at hends hleaves hmore
        obtain ⟨card', result⟩ := r
        have horigin' : card'.files src = some source := (hleaves src hne).trans horigin
        cases result with
        | failed err => exact ⟨horigin', hends, hsteps⟩
        | done => exact ⟨horigin', hends, hsteps⟩
        | more =>
          have hroom := hmore rfl
          have hpos : min (min (32768 * more) source.length + 4096 * 8) source.length =
              min (32768 * (more + 1)) source.length := by omega
          rw [hpos] at hends
          refine ⟨horigin', hends, ?_⟩
          simp only [↓reduceIte]
          omega

lemma CopyProgress.dst_eq {source : List Byte} {src dst : Path} {x : CopyTrace}
    (h : CopyProgress source src dst x) {job : CopyJob} (hjob : x.card.job = some job) : job.dst = dst := by
  obtain ⟨card, last, more⟩ := x
  have hstate := h.state
  dsimp only at hjob
  cases last with
  | more =>
    obtain rfl : _ = job := Option.some.inj (hstate.1.symm.trans hjob)
    rfl
  | done => exact absurd (hstate.1.symm.trans hjob) (by simp)
  | failed err => exact absurd (hstate.1.symm.trans hjob) (by simp)

/-- A copy that is begun creates its destination, and a refused one changes nothing. -/
lemma sdStorageCopyBegin_cases (io : BeginIo) (c : ImageCard) (src dst : Path) :
    (∃ err, sdStorageCopyBegin io c src dst = (c, some err)) ∨
      (c.job = none ∧ (c.files src).isSome = true ∧ c.files dst = none ∧
        sdStorageCopyBegin io c src dst = ({ c.createNew dst with job := some ⟨src, dst, 0⟩ }, none)) := by
  unfold sdStorageCopyBegin
  split
  · exact .inl ⟨_, rfl⟩
  · split
    · exact .inl ⟨_, rfl⟩
    next hjob =>
      split
      · exact .inl ⟨_, rfl⟩
      · split
        · exact .inl ⟨_, rfl⟩
        · by_cases hin : c.openResult src io.openIn = .ok
          · by_cases hout : c.createResult dst io.openOut = .ok
            · exact .inr ⟨by simpa using hjob, openResult_present hin, createResult_absent hout,
                (if_neg (not_not.mpr hin)).trans (if_neg (not_not.mpr hout))⟩
            · exact .inl ⟨_, (if_neg (not_not.mpr hin)).trans (if_pos hout)⟩
          · exact .inl ⟨_, if_pos hin⟩

/-- A copy starts with an empty destination. -/
lemma createNew_progress {c : ImageCard} {source : List Byte} {src dst : Path} (hne : src ≠ dst)
    (hsource : c.files src = some source) :
    CopyProgress source src dst ⟨{ c.createNew dst with job := some ⟨src, dst, 0⟩ }, .more, 0⟩ := by
  have hzero : min (32768 * 0) source.length = 0 := Nat.zero_min _
  have hcreated : Leaves c dst { c.createNew dst with job := some ⟨src, dst, 0⟩ } := c.setFile_leaves dst _
  have horigin := (hcreated src hne).trans hsource
  have hsteps : 32768 * 0 < source.length + 4096 := by omega
  refine ⟨horigin, ?_, hsteps⟩
  dsimp only
  rw [hzero]
  refine ⟨rfl, horigin, ?_, hne, Nat.zero_le _⟩
  simp [ImageCard.createNew, ImageCard.setFile, ImageCard.setLock]

/-- A copy that is refused changes nothing. One that is begun had no destination before, ends after
finitely many steps with the whole source in the destination or without a destination, and touches
nothing else. -/
def CopiedWhole (io : BeginIo) (c : ImageCard) (src dst : Path) : Prop :=
  (∀ err, (sdStorageCopyBegin io c src dst).2 = some err → (sdStorageCopyBegin io c src dst).1 = c) ∧
  ((sdStorageCopyBegin io c src dst).2 = none →
    c.files dst = none ∧ Leaves c dst (sdStorageCopyBegin io c src dst).1 ∧
    ∃ source, c.files src = some source ∧
      ∀ moves x, Guarded copyMove (fun x move => move.Admitted src dst x)
          ⟨(sdStorageCopyBegin io c src dst).1, .more, 0⟩ moves x →
        x.card.files src = some source ∧ 32768 * x.more < source.length + 4096 ∧
        (∀ io, Leaves x.card dst (sdStorageCopyStep io x.card).1) ∧
        match x.last with
        | .more => x.card.job.isSome = true
        | .done => x.card.job = none ∧ x.card.files dst = some source
        | .failed _ => x.card.job = none ∧ x.card.files dst = none)

lemma sdCopy_whole (io : BeginIo) (c : ImageCard) (src dst : Path) : CopiedWhole io c src dst := by
  obtain ⟨err, heq⟩ | ⟨_, hsrc, hdst, heq⟩ := sdStorageCopyBegin_cases io c src dst
  · unfold CopiedWhole
    rw [heq]
    exact ⟨fun _ _ => rfl, fun hnone => absurd hnone (by simp)⟩
  · obtain ⟨source, hsource⟩ := Option.isSome_iff_exists.mp hsrc
    have hne : src ≠ dst := by
      rintro rfl
      rw [hsource] at hdst
      exact absurd hdst (by simp)
    have hcreated : Leaves c dst { c.createNew dst with job := some ⟨src, dst, 0⟩ } := c.setFile_leaves dst _
    unfold CopiedWhole
    rw [heq]
    refine ⟨fun err herr => absurd herr (by simp), fun _ => ⟨hdst, hcreated, source, hsource, ?_⟩⟩
    intro moves x hrun
    have hprogress : CopyProgress source src dst x := by
      refine hrun.invariant (fun x move x' hx hg hs => ?_) (createNew_progress hne hsource)
      exact hx.step hne hg hs
    obtain ⟨card, last, more⟩ := x
    refine ⟨hprogress.origin, hprogress.steps, fun io => ?_, ?_⟩
    · exact sdStorageCopyStep_leaves io fun job hjob => hprogress.dst_eq hjob
    · have hstate := hprogress.state
      cases last with
      | more =>
        dsimp only at hstate ⊢
        rw [hstate.1]
        rfl
      | done => exact hstate
      | failed err => exact hstate

/-- Copies and creations are whole or without a trace, as long as what is written is closed for
good. -/
theorem sdImages_whole (c : ImageCard) :
    (∀ io src dst, CopiedWhole io c src dst) ∧
    ∀ io name sizeMb, CreatedWhole c name sizeMb (sdStorageCreateImage io c name sizeMb) ↔
      (Creates io c name sizeMb → io.close.Ends) :=
  ⟨fun io src dst => sdCopy_whole io c src dst,
    fun io name sizeMb => sdStorageCreateImage_whole_iff io c name sizeMb⟩

/-- A step in which nothing fails, with `k` chunks to go. -/
lemma CopyProgress.smooth {source : List Byte} {src dst : Path} {x : CopyTrace}
    (h : CopyProgress source src dst x) (hlast : x.last = .more) {io : CopyIo} (hio : io.Smooth) {k : ℕ}
    (hk : min (32768 * x.more) source.length + 4096 * k = source.length) :
    ∃ x', copyMove x (.step io) = some x' ∧ x'.last = (if k < 8 then .done else .more) ∧
      x'.more = if k < 8 then x.more else x.more + 1 := by
  have hstate := h.state
  rw [hlast] at hstate
  obtain ⟨hjob, hcopying⟩ := hstate
  have hrounds : sdStorageCopyStep io x.card =
      copyRounds io 8 x.card ⟨src, dst, min (32768 * x.more) source.length⟩ := by
    unfold sdStorageCopyStep
    rw [hjob]
  have hresult : (sdStorageCopyStep io x.card).2 = if k < 8 then .done else .more :=
    (congrArg Prod.snd hrounds).trans (copyRounds_smooth hio 8 hcopying hk)
  refine ⟨_, if_neg (by simp [hjob]), hresult, ?_⟩
  dsimp only
  rw [hresult]
  split <;> rfl

def nineChunks : List Byte := List.replicate 36864 0x55

lemma nineChunks_length : nineChunks.length = 36864 := List.length_replicate

/-- `a.img` holds nine chunks, and there is nothing else. -/
def nineCard : ImageCard where
  ready := true
  files := fun p => if p = 0x61 :: imgExtension then some nineChunks else none
  locked := fun _ => false
  job := none

def beginOk : BeginIo := ⟨.ok, .ok⟩

def smoothIo : CopyIo := ⟨fun _ => ⟨.ok, (.ok, 4096), []⟩, .closed⟩

lemma smoothIo_smooth : smoothIo.Smooth := ⟨fun _ => rfl, fun _ => rfl, rfl⟩

def nineStarted : CopyTrace :=
  ⟨(sdStorageCopyBegin beginOk nineCard (0x61 :: imgExtension) (0x62 :: imgExtension)).1, .more, 0⟩

/-- Eight chunks are copied in the first step and the last one in the second. -/
theorem sdImages_whole_nineChunks : ∃ x₁ x₂,
    copyMove nineStarted (.step smoothIo) = some x₁ ∧ x₁.last = .more ∧
      copyMove x₁ (.step smoothIo) = some x₂ ∧ x₂.last = .done ∧
      x₂.card.files (0x62 :: imgExtension) = some nineChunks := by
  have hcopy := ((sdImages_whole nineCard).1 beginOk (0x61 :: imgExtension) (0x62 :: imgExtension)).2 rfl
  obtain ⟨_, _, source, hsource, hrun⟩ := hcopy
  obtain rfl : nineChunks = source := Option.some.inj hsource
  have hne : (0x61 :: imgExtension : Path) ≠ 0x62 :: imgExtension := by decide
  have hstart : CopyProgress _ _ _ nineStarted := createNew_progress hne hsource
  have hadmitted (x : CopyTrace) :
      (CopyMove.step smoothIo).Admitted (0x61 :: imgExtension) (0x62 :: imgExtension) x := trivial
  have hnine : min (32768 * nineStarted.more) nineChunks.length + 4096 * 9 = nineChunks.length := by
    rw [nineChunks_length]
    rfl
  obtain ⟨x₁, hx₁, hlast₁, hmore₁⟩ := hstart.smooth rfl smoothIo_smooth hnine
  have hone : x₁.more = 1 := hmore₁
  have hprogress := hstart.step hne (hadmitted _) hx₁
  have hleft : min (32768 * x₁.more) nineChunks.length + 4096 * 1 = nineChunks.length := by
    rw [nineChunks_length, hone]
    norm_num
  obtain ⟨x₂, hx₂, hlast₂, -⟩ := hprogress.smooth hlast₁ smoothIo_smooth hleft
  obtain ⟨_, _, _, hend⟩ := hrun _ x₂ (.cons (hadmitted _) hx₁ (.cons (hadmitted _) hx₂ (.nil x₂)))
  rw [hlast₂] at hend
  exact ⟨x₁, x₂, hx₁, hlast₁, hx₂, hlast₂, hend.2⟩

/-- `a.img` holds one byte, and there is nothing else. -/
def oneImage : ImageCard where
  ready := true
  files := fun p => if p = 0x61 :: imgExtension then some [0x55] else none
  locked := fun _ => false
  job := none

/-- Everything works until the destination is closed. -/
def copyIo (close : CloseAnswer) : CopyIo := ⟨fun _ => ⟨.ok, (.ok, 1), []⟩, close⟩

def copyStarted : CopyTrace :=
  ⟨(sdStorageCopyBegin beginOk oneImage (0x61 :: imgExtension) (0x62 :: imgExtension)).1, .more, 0⟩

/-- The close of the destination fails and leaves it locked, so what was copied stays on the card. -/
theorem sdImages_partial :
    ∃ x, copyMove copyStarted (.step (copyIo (.stuck [0x00]))) = some x ∧
      x.last = .failed "close failed" ∧ oneImage.files (0x62 :: imgExtension) = none ∧
      x.card.files (0x62 :: imgExtension) = some [0x00] := by
  refine ⟨_, rfl, ?_, ?_, ?_⟩ <;> decide

end PicoV9k.Storage
