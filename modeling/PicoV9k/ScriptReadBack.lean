import PicoV9k.ConsoleReplies

/-!
# What scripts read back

The text of `status` and `peek` taken apart again by its fields: together with what
the rows say of the card, a script learns the board and the sectors of its images.
-/
namespace PicoV9k.Console
open PicoV9k.Bus PicoV9k.Storage PicoV9k.Lines PicoV9k.Mgmt PicoV9k.Runs

def readBackend (field : Line) : Option Backend :=
  if field = ascii "sd" then some .sdcard else if field = ascii "fuji" then some .fujinet else none

def readName (backend : Backend) (field : Line) : Path :=
  if field = ascii "-" then [] else field.drop (namePrefix backend).length

/-- `<t> <name> <backend> <state> <sectors>`; the name may contain spaces. -/
def readStatusRow (line : Line) : Option (ℕ × StatusRow) :=
  let (t, rest) := cutFirst space line
  let (rest, sectors) := cutLast space rest
  let (rest, state) := cutLast space rest
  let (name, backend) := cutLast space rest
  (readBackend backend).map fun b => ((readDigits 10 t).1,
    { backend := b
      mounted := state == ascii "mounted"
      capacity := (readDigits 10 sectors).1
      name := readName b name })

lemma readDigits_decimal_nil (n : ℕ) : (readDigits 10 (decimal n)).1 = n := by
  have h := @readDigits_decimal n [] rfl
  rw [List.append_nil] at h
  rw [h]

@[simp] lemma space_decimal (n : ℕ) : space ∉ decimal n := by
  intro h
  have hdigit := mem_decimal h
  simp [space] at hdigit

lemma readName_dispName {backend : Backend} {name : Path} (h : name.length < conopNameMax) :
    readName backend (dispName backend name) = name := by
  have hsource : ∀ rest, namePrefix backend ++ rest ≠ ascii "-" := by
    intro rest heq
    have hlen := congrArg List.length heq
    cases backend <;> simp [namePrefix, ascii] at hlen
  unfold dispName
  split
  next hempty =>
    rw [readName, if_pos rfl, hempty]
  next hnonempty =>
    have hwhole : (namePrefix backend ++ name).take (conopNameMax + 7) = namePrefix backend ++ name := by
      apply List.take_of_length_le
      have hp : (namePrefix backend).length ≤ 5 := by cases backend <;> decide
      rw [List.length_append]
      omega
    rw [hwhole, readName, if_neg (hsource name), List.drop_left]

/-- A row is read back whole. -/
lemma readStatusRow_statusRow (t : ℕ) {row : StatusRow} (hbackend : row.backend ≠ .none)
    (hname : row.name.length < conopNameMax) : readStatusRow (statusRow t row) = some (t, row) := by
  have hstate : space ∉ stateName row.mounted := by cases row.mounted <;> decide
  have hfield : space ∉ backendName row.backend := by cases row.backend <;> decide
  have hread : readBackend (backendName row.backend) = some row.backend := by
    cases h : row.backend with
    | none => exact absurd h hbackend
    | sdcard => decide
    | fujinet => decide
  have hmounted : (stateName row.mounted == ascii "mounted") = row.mounted := by cases row.mounted <;> decide
  have hassoc : dispName row.backend row.name ++ space :: (backendName row.backend ++
      space :: (stateName row.mounted ++ space :: decimal row.capacity)) =
      ((dispName row.backend row.name ++ space :: backendName row.backend) ++ space :: stateName row.mounted) ++
        space :: decimal row.capacity := by simp
  unfold readStatusRow statusRow
  rw [cutFirst_append (space_decimal t)]
  dsimp only
  rw [hassoc, cutLast_append (space_decimal row.capacity)]
  dsimp only
  rw [cutLast_append hstate]
  dsimp only
  rw [cutLast_append hfield]
  simp [hread, hmounted, readDigits_decimal_nil, readName_dispName hname]

def readPeekLine (line : Line) : List Byte :=
  (line.splitOn space).tail.map fun field => BitVec.ofNat 8 (readDigits 16 field).1

lemma readDigits_hex_nil (k n : ℕ) : (readDigits 16 (hex k n)).1 = n := by
  have h := @readDigits_hex k n [] rfl
  rw [List.append_nil] at h
  rw [h]

@[simp] lemma space_hex (k n : ℕ) : space ∉ hex k n := by
  intro h
  have hdigit := mem_hex h
  simp [space] at hdigit

lemma readPeekLine_peekLine (data : Sector) (i : Fin 32) :
    readPeekLine (peekLine data i) = List.ofFn (peekByte data i) := by
  have hoffset : space ∉ hex 3 (16 * i) ++ [0x3A] := by
    simp only [List.mem_append, space_hex, false_or]
    decide
  have hline : peekLine data i = (hex 3 (16 * i) ++ [0x3A]) ++ (List.finRange 16).flatMap fun j =>
      space :: hex 2 (peekByte data i j).toNat := by simp [peekLine]
  unfold readPeekLine
  rw [hline, splitOn_flatMap hoffset (fun j => space_hex 2 _), List.tail_cons, List.map_map, List.ofFn_eq_map]
  apply List.map_congr_left
  intro j _
  simp [readDigits_hex_nil]

/-- The dump of a sector gives it back. -/
lemma readPeek_dump (data : Sector) :
    ((List.finRange 32).map (peekLine data)).flatMap readPeekLine = List.ofFn data := by
  have hrows : List.ofFn data = (List.ofFn fun i => List.ofFn (peekByte data i)).flatten :=
    @List.ofFn_mul' Byte 16 32 data
  rw [hrows, List.flatMap_map, List.ofFn_eq_map, List.flatMap_def]
  simp only [readPeekLine_peekLine]

section
variable {files images : Path → ℕ → Sector} {slots : ℕ → EspSlot} {ops : List CardOp} {card : ConsoleCard}
  {w : ReplWorld} {r : ConopResult ConopData}

lemma statusLines_read {rows : ℕ → StatusRow} (hnames : ∀ t, (rows t).name.length < conopNameMax) :
    (statusLines rows).mapM readStatusRow =
      some (((List.range storageMaxTargets).filter fun t => (rows t).backend ≠ .none).map fun t => (t, rows t)) := by
  unfold statusLines
  induction List.range storageMaxTargets with
  | nil => rfl
  | cons t ts ih =>
    rw [List.filter_cons]
    split
    next hbackend =>
      simp only [List.map_cons, List.mapM_cons, ih]
      rw [readStatusRow_statusRow t (by simpa using hbackend) (hnames t)]
      rfl
    next => exact ih

lemma readReply_ok {body : List Line} (hbody : ∀ line ∈ body, Inner line) (rest : Line) :
    readReply lf isEndLine [] [] (render lf (body ++ [okLine]) ++ rest) = some (body ++ [okLine], rest) :=
  readReply_framed (proper_ok hbody).plain (proper_ok hbody).framed rest

lemma doStatus_short (card : ConsoleCard) (t : ℕ) : (doStatus card t).name.length < conopNameMax := by
  have hcopy : ∀ name, (copyName name).length < conopNameMax := by
    intro name
    simp [copyName, conopNameMax]
  unfold doStatus
  dsimp only
  split
  · exact hcopy _
  · exact hcopy _
  · decide

/-- What a script reads from `status`, whatever the boot and the console have done before: the targets
that have a backend, and of a mounted one the image. -/
theorem script_reads_board (h : Guarded cardRun (fun w op => op.Regular w) (.powerUp files slots images) ops card)
    (hanswer : w.submit (request .status) = some r) (hrows : r.data.rows = doStatus card)
    (hnames : ∀ t < storageMaxTargets, lf ∉ (doStatus card t).name) (rest : Line) :
    ∃ lines rows, readReply lf isEndLine [] [] (render lf (cmdStatus w) ++ rest) = some (lines ++ [okLine], rest) ∧
      lines.mapM readStatusRow = some rows ∧
      rows.map Prod.fst = (List.range storageMaxTargets).filter (fun t =>
        (boardAfter (fun _ => none) (.powerUp files slots images) ops).backend t ≠ .none) ∧
      ∀ t row, (t, row) ∈ rows →
        row.backend = (boardAfter (fun _ => none) (.powerUp files slots images) ops).backend t ∧
        (row.mounted = true → boardAfter (fun _ => none) (.powerUp files slots images) ops t =
          some (row.backend, row.name)) := by
  have hshows := cardRun_shows h (powerUp_shows files slots images)
  have hbackend : ∀ t < storageMaxTargets, (doStatus card t).backend =
      (boardAfter (fun _ => none) (.powerUp files slots images) ops).backend t :=
    fun t ht => (if_neg (not_le.mpr ht)).trans (hshows.backend t ht)
  have hinner : ∀ line ∈ statusLines r.data.rows, Inner line := by
    simp only [statusLines, List.forall_mem_map, hrows]
    intro t ht
    exact statusRow_inner t (hnames t (List.mem_range.mp (List.mem_filter.mp ht).1))
  have hread := statusLines_read (hrows ▸ doStatus_short card : ∀ t, (r.data.rows t).name.length < conopNameMax)
  refine ⟨statusLines r.data.rows, _, ?_, hread, ?_, ?_⟩
  · rw [cmdStatus, hanswer]
    exact readReply_ok hinner rest
  · rw [List.map_map, hrows]
    simp only [Function.comp_def, List.map_id']
    apply List.filter_congr
    intro t ht
    rw [hbackend t (List.mem_range.mp ht)]
  · intro t row hmem
    obtain ⟨t', ht', heq⟩ := List.mem_map.mp hmem
    obtain ⟨rfl, rfl⟩ := Prod.mk.inj heq
    have ht : t' < storageMaxTargets := List.mem_range.mp (List.mem_filter.mp ht').1
    rw [hrows]
    exact ⟨hbackend t' ht, hshows.row ht⟩

/-- `do_peek`. -/
def doPeek (card : ConsoleCard) (t lba : ℕ) (io : StorageIo) : Option Sector :=
  if storageIsMounted cardRegistry card.routing t then (storageReadSector cardRegistry io card.routing t lba).2
  else none

lemma parseTarget_lt {target : Line} {t : ℕ} (h : parseTarget (some target) = some t) : t < storageMaxTargets := by
  unfold parseTarget at h
  split at h
  · split at h
    · cases h
      have : storageMaxTargets = 8 := rfl
      omega
    · cases h
  · cases h

lemma doPeek_cases {t lba : ℕ} {io : StorageIo} {data : Sector} (h : doPeek card t lba io = some data) :
    storageIsMounted cardRegistry card.routing t = true ∧
      (storageReadSector cardRegistry io card.routing t lba).2 = some data := by
  unfold doPeek at h
  split at h
  next hmounted => exact ⟨hmounted, h⟩
  next => cases h

/-- What a script reads from `peek` of an SD drive: the bytes of the image the board names for it. -/
theorem script_reads_sector (h : Guarded cardRun (fun w op => op.Regular w) (.powerUp files slots images) ops card)
    {t : ℕ} {target lba : Line} (htarget : parseTarget (some target) = some t) {name : Path}
    (hboard : boardAfter (fun _ => none) (.powerUp files slots images) ops t = some (.sdcard, name))
    (hanswer : w.submit { request .peek with target := BitVec.ofNat 8 t, lba := (strtoul 0 lba).1 } = some r)
    (hok : r.ok = true) {io : StorageIo} (hwhole : io.sd.ReadsWhole)
    (hpeek : doPeek card t (strtoul 0 lba).1.toNat io = some r.data.peek) (rest : Line) :
    ∃ lines, readReply lf isEndLine [] [] (render lf (cmdPeek w [target, lba]) ++ rest) =
        some (lines ++ [okLine], rest) ∧
      lines.flatMap readPeekLine = List.ofFn (card.routing.media.sd.files name (strtoul 0 lba).1.toNat) := by
  have ht : t < storageMaxTargets := parseTarget_lt htarget
  have hshows := cardRun_shows h (powerUp_shows files slots images)
  have hbackend : (doStatus card t).backend = .sdcard := by
    rw [show (doStatus card t).backend = card.routing.targetBackend t from if_neg (not_le.mpr ht),
      hshows.backend t ht]
    simp [Board.backend, hboard]
  obtain ⟨hmounted, hread⟩ := doPeek_cases hpeek
  have hname : (doStatus card t).name = name := by
    have hrow := hshows.row ht hmounted
    rw [hboard] at hrow
    simpa using congrArg (Option.map Prod.snd) hrow.symm
  have hdata : r.data.peek = card.routing.media.sd.files name (strtoul 0 lba).1.toNat := by
    rw [← hname]
    exact hshows.reads ht hwhole hbackend hread
  have hinner : ∀ line ∈ (List.finRange 32).map (peekLine r.data.peek), Inner line := by
    rw [List.forall_mem_map]
    exact fun i _ => peekLine_inner r.data.peek i
  refine ⟨(List.finRange 32).map (peekLine r.data.peek), ?_, ?_⟩
  · simp only [cmdPeek, List.head?_cons, htarget, List.getElem?_cons_succ, List.getElem?_cons_zero, hanswer, onResult,
      hok, if_true]
    exact readReply_ok hinner rest
  · rw [readPeek_dump, hdata]

end

def oneImage : List CardOp := [.bootInit .sdcard readyIo, .mount .sdcard 0 (ascii "a b") true readyIo]

/-- Core 1 answers with the state of the card. -/
def answering (card : ConsoleCard) : ReplWorld where
  submit _ := some {
    ok := true
    err := []
    data := {
      entries := []
      peek := (doPeek card 0 1 readyIo.op).getD fun _ => 0
      rows := doStatus card
      ssid := []
      wifiConnected := false
      scan := [] } }
  drdy := true
  targetBackend := card.routing.targetBackend
  isMounted := storageIsMounted cardRegistry card.routing
  buscap := fun _ _ => .timeout

lemma oneImage_run : Guarded cardRun (fun w op => op.Regular w)
    (.powerUp (fun _ _ _ => 0) (fun _ => ⟨none, none⟩) fun _ _ _ => 0) oneImage (cardAfter oneImage) := by
  refine .of_total (fun _ _ => rfl) fun n hn => ?_
  have hn : n < 2 := hn
  interval_cases n
  · trivial
  · exact Nat.le_of_ble_eq_true rfl

theorem script_reads_board_one_image : ∃ lines rows,
    readReply lf isEndLine [] [] (render lf (cmdStatus (answering (cardAfter oneImage)))) =
        some (lines ++ [okLine], []) ∧
      lines.mapM readStatusRow = some rows ∧ rows.map Prod.fst = [0] := by
  have hnames : ∀ t < storageMaxTargets, lf ∉ (doStatus (cardAfter oneImage) t).name := by decide
  obtain ⟨lines, rows, hreply, hrows, htargets, -⟩ :=
    @script_reads_board _ _ _ _ _ (answering (cardAfter oneImage)) _ oneImage_run rfl rfl hnames []
  rw [List.append_nil] at hreply
  exact ⟨lines, rows, hreply, hrows, htargets.trans (by decide)⟩

theorem script_reads_sector_one_image : ∃ lines,
    readReply lf isEndLine [] [] (render lf (cmdPeek (answering (cardAfter oneImage)) [ascii "0", ascii "1"])) =
        some (lines ++ [okLine], []) ∧
      lines.flatMap readPeekLine = List.replicate 512 0 := by
  obtain ⟨lines, hreply, hbytes⟩ := @script_reads_sector _ _ _ _ _ (answering (cardAfter oneImage)) _ oneImage_run 0
    (ascii "0") (ascii "1") (by decide) (ascii "a b") rfl rfl rfl readyIo.op (fun _ _ => le_rfl) rfl []
  rw [List.append_nil] at hreply
  exact ⟨lines, hreply, hbytes.trans (List.ofFn_const 512 (0 : Byte))⟩

end PicoV9k.Console
