import PicoV9k.BusCapture
import PicoV9k.ConsoleMailbox
import PicoV9k.ConsoleStatus
import PicoV9k.LineReplies

/-!
# The replies of the console

`tui_cmds.c`: scripts read lines until one that is "OK" or begins with "ERR ". Each
handler is given as the lines it writes, for whatever core 1 answers its requests; the
line engine, which finds the handler and splits the arguments, stands before it.
-/
namespace PicoV9k.Console
open PicoV9k.Bus PicoV9k.Storage PicoV9k.Lines PicoV9k.Mgmt

structure LsEntry where
  name : Path
  size : BitVec 32

/-- The fields of `conop_result_t` that the handlers print. -/
structure ConopData where
  entries : List LsEntry
  peek : Sector
  rows : ℕ → StatusRow
  ssid : Path
  wifiConnected : Bool
  scan : List (ℤ × Path)

/-- The answers of core 1 during one command, and what core 0 reads without it. -/
structure ReplWorld where
  submit : Request → Option (ConopResult ConopData)
  drdy : Bool
  targetBackend : ℕ → Backend
  isMounted : ℕ → Bool
  buscap : BitVec 32 → Bool → Capture

def space : Byte := 0x20

/-- `backend_name`. -/
def backendName : Backend → Line
  | .sdcard => ascii "sd"
  | .fujinet => ascii "fuji"
  | .none => ascii "-"

def namePrefix : Backend → Line
  | .fujinet => ascii "fuji:"
  | .sdcard | .none => ascii "sd:"

/-- `disp_name`, into a buffer of `CONOP_NAME_MAX + 8` bytes. -/
def dispName (backend : Backend) (name : Path) : Line :=
  if name = [] then ascii "-" else (namePrefix backend ++ name).take (conopNameMax + 7)

/-- `parse_target`. -/
def parseTarget : Option Line → Option ℕ
  | some [c] => if 0x30 ≤ c.toNat ∧ c.toNat ≤ 0x37 then some (c.toNat - 0x30) else none
  | _ => none

/-- `sd_name`: create, copy and rm are for the SD card only. -/
def sdName (s : Option Line) : Option Line := do
  let s ← s
  let s := if (ascii "sd:").isPrefixOf s then s.drop 3 else s
  if s.contains 0x3A || s.isEmpty then none else some s

def lower (b : Byte) : Byte := if 0x41 ≤ b.toNat ∧ b.toNat ≤ 0x5A then b + 0x20 else b

def okLine : Line := ascii "OK"

def errLine (reason : Line) : Line := ascii "ERR " ++ reason

def request (op : ConsoleOp) : Request := ⟨op, .none, 0, 0, none, none⟩

/-- The reply to a request: core 1 may be busy, or refuse it. -/
def onResult (r : Option (ConopResult ConopData)) (reply : ConopResult ConopData → List Line) : List Line :=
  match r with
  | none => [errLine (ascii "busy (core 1)")]
  | some r => if r.ok then reply r else [errLine r.err]

def usage (text : String) : List Line := [errLine (ascii ("usage: " ++ text))]

def lsLine (backend : Backend) (e : LsEntry) : Line :=
  namePrefix backend ++ e.name ++ space :: decimal e.size.toNat

/-- A listing that core 1 could not make has no rows. -/
def lsLines (backend : Backend) (r : Option (ConopResult ConopData)) : List Line :=
  match r with
  | none => []
  | some r => r.data.entries.map (lsLine backend)

def stateName (mounted : Bool) : Line := if mounted then ascii "mounted" else ascii "unmounted"

/-- `status_row`. -/
def statusRow (t : ℕ) (row : StatusRow) : Line :=
  decimal t ++ space :: (dispName row.backend row.name ++ space :: (backendName row.backend ++
    space :: (stateName row.mounted ++ space :: decimal row.capacity)))

def peekByte (data : Sector) (i : Fin 32) (j : Fin 16) : Byte := data ⟨16 * i.val + j.val, by omega⟩

def peekLine (data : Sector) (i : Fin 32) : Line :=
  hex 3 (16 * i) ++ 0x3A :: (List.finRange 16).flatMap fun j => space :: hex 2 (peekByte data i j).toNat

def scanLine (network : ℤ × Path) : Line := signed network.1 ++ space :: network.2

def wifiLine (data : ConopData) : Line :=
  (if data.ssid = [] then ascii "-" else data.ssid) ++
    space :: ascii (if data.wifiConnected then "connected" else "disconnected")

def helpLines : List Line := [
  ascii "Commands (every reply ends with a line 'OK' or 'ERR <reason>'):",
  ascii "  ls                 list images: 'sd:<name> <bytes>' then 'fuji:<name> <bytes>'",
  ascii "  status             per target 0-7 with a backend: '<t> <name> <backend> <state> <sectors>'",
  ascii "  mount <t> <[sd:|fuji:]file>  insert an image on SASI target t (bare name = sd:)",
  ascii "  eject <t>          leave SASI target t empty",
  ascii "  create <file.img> <sizeMB>   new blank SD image (1-512 MB)",
  ascii "  copy <src> <dst>   duplicate an SD image (blocks; a 30 MB image takes ~2 min)",
  ascii "  rm <file.img>      delete an unmounted SD image",
  ascii "  peek <t> <lba>     hex-dump one 512-byte sector of a mounted target",
  ascii "  wifi               ESP32 WiFi: '<ssid|-> <connected|disconnected>'",
  ascii "  wifi scan          list visible networks: '<rssi-dBm> <ssid>' per line",
  ascii "  wifi <ssid> <password>  join + persist (SSID may contain spaces; the password can't)",
  ascii "  diag               diag-UART liveness ping + DRDY + per-target backends",
  ascii "  menu               full-screen menu for humans (q returns)",
  ascii "  help               this text"]

def cmdHelp : List Line := helpLines ++ [okLine]

variable (w : ReplWorld)

def cmdLs : List Line :=
  lsLines .sdcard (w.submit (request .lsSd)) ++ lsLines .fujinet (w.submit (request .lsFuji)) ++ [okLine]

def statusLines (rows : ℕ → StatusRow) : List Line :=
  ((List.range storageMaxTargets).filter fun t => (rows t).backend ≠ .none).map fun t => statusRow t (rows t)

/-- The status does not look at `ok`. -/
def cmdStatus : List Line :=
  match w.submit (request .status) with
  | none => [errLine (ascii "busy (core 1)")]
  | some r => statusLines r.data.rows ++ [okLine]

def cmdEject (args : List Line) : List Line :=
  match parseTarget args.head? with
  | none => [errLine (ascii "target must be 0-7")]
  | some t => onResult (w.submit { request .eject with target := BitVec.ofNat 8 t }) fun _ => [okLine]

/-- The prefix of an image name chooses its backend. -/
def imageOf (name : Line) : Backend × Line :=
  if (ascii "fuji:").isPrefixOf name then (.fujinet, name.drop 5)
  else if (ascii "sd:").isPrefixOf name then (.sdcard, name.drop 3)
  else (.sdcard, name)

def cmdMount (args : List Line) : List Line :=
  match parseTarget args.head?, args[1]? with
  | none, _ => [errLine (ascii "target must be 0-7")]
  | some _, none => usage "mount <t> <[sd:|fuji:]file>"
  | some t, some name =>
    if (imageOf name).2 = [] then usage "mount <t> <[sd:|fuji:]file>"
    else onResult (w.submit ⟨.mount, (imageOf name).1, BitVec.ofNat 8 t, 0, some (imageOf name).2, none⟩)
      fun _ => [okLine]

def cmdPeek (args : List Line) : List Line :=
  match parseTarget args.head?, args[1]? with
  | some t, some lba =>
    onResult (w.submit { request .peek with target := BitVec.ofNat 8 t, lba := (strtoul 0 lba).1 }) fun r =>
      (List.finRange 32).map (peekLine r.data.peek) ++ [okLine]
  | _, _ => usage "peek <t> <lba>"

def cmdCreate (args : List Line) : List Line :=
  match sdName args.head?, args[1]? with
  | some name, some size =>
    if (strtoul 10 size).2 ≠ [] ∨ (strtoul 10 size).1 = 0 then usage "create <file.img> <sizeMB>"
    else onResult (w.submit { request .create with lba := (strtoul 10 size).1, arg1 := some name }) fun _ => [okLine]
  | _, _ => usage "create <file.img> <sizeMB>"

def cmdRm (args : List Line) : List Line :=
  match sdName args.head? with
  | none => usage "rm <file.img> (sd only)"
  | some name => onResult (w.submit { request .rm with arg1 := some name }) fun _ => [okLine]

def cmdCopy (args : List Line) : List Line :=
  match sdName args.head?, sdName args[1]? with
  | some src, some dst =>
    onResult (w.submit { request .copy with arg1 := some src, arg2 := some dst }) fun _ => [okLine]
  | _, _ => usage "copy <src> <dst> (sd only)"

/-- `wifi` alone asks, `wifi scan` lists, and anything longer joins: the password is the last word, and
the words before it are the name, put together again in a buffer of 64 bytes. -/
def cmdWifi : List Line → List Line
  | [] => onResult (w.submit (request .wifiGet)) fun r => [wifiLine r.data] ++ [okLine]
  | [word] =>
    if word.map lower = ascii "scan" then
      onResult (w.submit (request .scan)) fun r => r.data.scan.map scanLine ++ [okLine]
    else usage "wifi | wifi scan | wifi <ssid> <password>"
  | word :: next :: words =>
    let ssid := ([space].intercalate (word :: next :: words).dropLast).take 63
    onResult (w.submit { request .wifiSet with arg1 := some ssid, arg2 := (next :: words).getLast? })
      fun _ => [okLine]

def diagRow (t : ℕ) : Line :=
  decimal t ++ space :: (backendName (w.targetBackend t) ++ space :: stateName (w.isMounted t))

def cmdDiag : List Line :=
  (ascii "DRDY " ++ ascii (if w.drdy then "high" else "low")) ::
    ((List.range storageMaxTargets).filter fun t => w.targetBackend t ≠ .none).map (diagRow w) ++ [okLine]

def cmdBuscap (args : List Line) : List Line :=
  let skip := (args.head?.map fun s => (strtoul 0 s).1).getD 0
  let wide := args[1]?.any fun s => s.head? == some 0x77
  let expect : ℤ := (args[2]?.map fun s => (strtoul 16 s).1.toInt).getD (-1)
  let armed := ascii "armed: waiting for XACK edge (run MGSPIN on the Victor)"
  match w.buscap skip wide with
  | .noProgramSpace => [errLine (ascii "pio2 program space")]
  | .noDmaChannel => [errLine (ascii "no free DMA channel")]
  | .timeout => [armed] ++ [errLine (ascii "trigger timeout (no EF3xx access seen)")]
  | .captured samples => (armed :: if wide then wideLines samples expect else edgeLines samples) ++ [okLine]

/-- The entries of `k_cmds` that reply, and what the engine does not find there. `menu` does not reply. -/
inductive Command
  | help | ls | status | mount | eject | peek | create | copy | rm | wifi | diag | buscap | unknown
  deriving DecidableEq

/-- A command with its arguments, and what it meets. -/
structure Exchange where
  command : Command
  args : List Line
  world : ReplWorld

def Exchange.reply (e : Exchange) : List Line :=
  match e.command with
  | .help => cmdHelp
  | .ls => cmdLs e.world
  | .status => cmdStatus e.world
  | .mount => cmdMount e.world e.args
  | .eject => cmdEject e.world e.args
  | .peek => cmdPeek e.world e.args
  | .create => cmdCreate e.world e.args
  | .copy => cmdCopy e.world e.args
  | .rm => cmdRm e.world e.args
  | .wifi => cmdWifi e.world e.args
  | .diag => cmdDiag e.world
  | .buscap => cmdBuscap e.world e.args
  | .unknown => [errLine (ascii "unknown command (try 'help')")]

/-- The transport sends it as CR LF. -/
def lf : Byte := 0x0A

def isEndLine (line : Line) : Bool := line == okLine || (ascii "ERR ").isPrefixOf line

/-- A line inside a reply. -/
structure Inner (line : Line) : Prop where
  plain : lf ∉ line
  goesOn : isEndLine line = false

lemma okLine_eq : okLine = [0x4F, 0x4B] := by decide

lemma errMark_eq : ascii "ERR " = [0x45, 0x52, 0x52, 0x20] := by decide

/-- A line that begins with neither O nor E ends no reply. -/
lemma isEndLine_cons {b : Byte} {line : Line} (hO : b ≠ 0x4F) (hE : b ≠ 0x45) : isEndLine (b :: line) = false := by
  have hmark : ((0x45 : Byte) == b) = false := by simpa using Ne.symm hE
  simp only [isEndLine, okLine_eq, errMark_eq, List.isPrefixOf_cons_cons, hmark, Bool.false_and, Bool.or_false]
  simp only [beq_eq_false_iff_ne, ne_eq, List.cons.injEq]
  exact fun h => hO h.1

lemma inner_cons {b : Byte} {line : Line} (hO : b ≠ 0x4F) (hE : b ≠ 0x45) (h : lf ∉ b :: line) : Inner (b :: line) :=
  ⟨h, isEndLine_cons hO hE⟩

/-- The texts of the program, byte for character. -/
lemma lf_ascii {chars : List Char} (h : chars.all (fun ch => ch.toNat % 256 != 0x0A) = true) :
    lf ∉ ascii (String.ofList chars) := by
  intro hmem
  rw [ascii, String.toList_ofList] at hmem
  obtain ⟨ch, hch, heq⟩ := List.mem_map.mp hmem
  have hten := congrArg BitVec.toNat heq
  simp only [BitVec.toNat_ofNat, lf] at hten
  simpa [hten] using List.all_eq_true.mp h ch hch

lemma inner_ascii {ch : Char} {chars : List Char} (hO : ch.toNat % 256 ≠ 0x4F) (hE : ch.toNat % 256 ≠ 0x45)
    (h : (ch :: chars).all (fun c => c.toNat % 256 != 0x0A) = true) : Inner (ascii (String.ofList (ch :: chars))) := by
  have hplain := lf_ascii h
  rw [ascii, String.toList_ofList, List.map_cons] at hplain ⊢
  apply inner_cons _ _ hplain
  · intro heq
    exact hO (by simpa using congrArg BitVec.toNat heq)
  · intro heq
    exact hE (by simpa using congrArg BitVec.toNat heq)

@[simp] lemma isEndLine_okLine : isEndLine okLine = true := by decide

@[simp] lemma isEndLine_errLine (reason : Line) : isEndLine (errLine reason) = true := by
  simp [isEndLine, errLine]

@[simp] lemma lf_ne_space : lf ≠ space := by decide

@[simp] lemma lf_decimal (n : ℕ) : lf ∉ decimal n := by
  intro h
  have hdigit := mem_decimal h
  simp [lf] at hdigit

@[simp] lemma lf_hex (k n : ℕ) : lf ∉ hex k n := by
  intro h
  have hdigit := mem_hex h
  simp [lf] at hdigit

lemma lf_padded {fill : Byte} (hfill : lf ≠ fill) {k : ℕ} {digits : Line} (h : lf ∉ digits) :
    lf ∉ padded fill k digits := by
  intro hmem
  rcases List.mem_append.mp hmem with hmem | hmem
  · exact hfill (List.eq_of_mem_replicate hmem)
  · exact h hmem

@[simp] lemma lf_spaced (k n : ℕ) : lf ∉ spaced k n := lf_padded (by decide) (lf_decimal n)

lemma lf_dispName {backend : Backend} {name : Path} (h : lf ∉ name) : lf ∉ dispName backend name := by
  unfold dispName
  split
  · decide
  · intro hmem
    rcases List.mem_append.mp (List.mem_of_mem_take hmem) with hsource | hname
    · cases backend <;> exact absurd hsource (by decide)
    · exact h hname

/-- A line that begins with a field of digits, spaces and signs. -/
lemma inner_field {front rest : Line} (hne : front ≠ []) (hfront : ∀ b ∈ front, 0x20 ≤ b.toNat ∧ b.toNat ≤ 0x44)
    (hrest : lf ∉ rest) : Inner (front ++ rest) := by
  have hbyte : ∀ c : Byte, (c.toNat < 0x20 ∨ 0x44 < c.toNat) → c ∉ front := by
    intro c hc hmem
    have := hfront c hmem
    omega
  have hplain : lf ∉ front ++ rest := by
    rw [List.mem_append, not_or]
    exact ⟨hbyte lf (by decide), hrest⟩
  obtain ⟨b, front, rfl⟩ := List.exists_cons_of_ne_nil hne
  apply inner_cons _ _ hplain
  · rintro rfl
    exact hbyte 0x4F (by decide) (List.mem_cons_self ..)
  · rintro rfl
    exact hbyte 0x45 (by decide) (List.mem_cons_self ..)

lemma mem_decimal_field {b : Byte} {n : ℕ} (h : b ∈ decimal n) : 0x20 ≤ b.toNat ∧ b.toNat ≤ 0x44 := by
  have := mem_decimal h
  omega

lemma inner_decimal {n : ℕ} {rest : Line} (h : lf ∉ rest) : Inner (decimal n ++ rest) :=
  inner_field (decimal_ne_nil n) (fun _ => mem_decimal_field) h

lemma inner_signed {i : ℤ} {rest : Line} (h : lf ∉ rest) : Inner (signed i ++ rest) := by
  apply inner_field _ _ h <;> unfold signed <;> split
  · simp
  · exact decimal_ne_nil _
  · intro b hb
    rcases List.mem_cons.mp hb with rfl | hb
    · decide
    · exact mem_decimal_field hb
  · exact fun _ => mem_decimal_field

lemma mem_spaced_field {b : Byte} {k n : ℕ} (h : b ∈ spaced k n) : 0x20 ≤ b.toNat ∧ b.toNat ≤ 0x44 := by
  rcases List.mem_append.mp h with h | h
  · rw [List.eq_of_mem_replicate h]
    decide
  · exact mem_decimal_field h

lemma inner_namePrefix {backend : Backend} {rest : Line} (h : lf ∉ rest) : Inner (namePrefix backend ++ rest) := by
  have hplain : lf ∉ namePrefix backend ++ rest := by
    rw [List.mem_append, not_or]
    exact ⟨by cases backend <;> decide, h⟩
  cases backend <;> exact inner_cons (by decide) (by decide) hplain

@[simp] lemma lf_backendName (backend : Backend) : lf ∉ backendName backend := by cases backend <;> decide

@[simp] lemma lf_stateName (mounted : Bool) : lf ∉ stateName mounted := by cases mounted <;> decide

lemma lsLine_inner (backend : Backend) {e : LsEntry} (h : lf ∉ e.name) : Inner (lsLine backend e) := by
  unfold lsLine
  rw [List.append_assoc]
  apply inner_namePrefix
  simp [h]

lemma statusRow_inner (t : ℕ) {row : StatusRow} (h : lf ∉ row.name) : Inner (statusRow t row) := by
  apply inner_decimal
  simp [lf_dispName h]

lemma diagRow_inner (w : ReplWorld) (t : ℕ) : Inner (diagRow w t) := by
  apply inner_decimal
  simp

lemma scanLine_inner {network : ℤ × Path} (h : lf ∉ network.2) : Inner (scanLine network) := by
  apply inner_signed
  simpa using h

/-- The offset of a row is below 0x200, so its first digit is 0 or 1. -/
lemma peekLine_inner (data : Sector) (i : Fin 32) : Inner (peekLine data i) := by
  have hhead : ∀ i : Fin 32, ∃ b, (b ≠ 0x4F ∧ b ≠ 0x45) ∧ hex 3 (16 * i) = b :: (hex 3 (16 * i)).drop 1 := by
    intro i
    fin_cases i <;> exact ⟨_, by decide, rfl⟩
  have hplain : lf ∉ peekLine data i := by
    simp only [peekLine, List.mem_append, List.mem_cons, List.mem_flatMap, lf_hex, lf_ne_space, false_or]
    decide
  obtain ⟨b, ⟨hO, hE⟩, hhex⟩ := hhead i
  unfold peekLine at hplain ⊢
  rw [hhex] at hplain ⊢
  exact inner_cons hO hE hplain

lemma helpLines_inner : ∀ line ∈ helpLines, Inner line := by
  simp only [helpLines, List.forall_mem_cons]
  repeat' apply And.intro
  all_goals first | exact inner_ascii (by decide) (by decide) rfl | simp

@[simp] lemma lf_signal {name : String} (h : lf ∉ ascii name) (high : Bool) : lf ∉ signal name high := by
  simp [signal, h]

lemma edgeLine_inner {time : ℕ → Line} (htime : ∀ t, time t ≠ [] ∧ ∀ b ∈ time t, 0x20 ≤ b.toNat ∧ b.toNat ≤ 0x44)
    (nsPer : ℕ) (edge : ℕ × Sample) : Inner (edgeLine nsPer time edge) := by
  unfold edgeLine
  simp only [List.append_assoc]
  apply inner_field (htime _).1 (htime _).2
  simp only [List.mem_append, lf_hex, not_or]
  repeat' apply And.intro
  all_goals first | exact lf_signal (by decide) _ | decide

lemma printEdges_inner (nsPer : ℕ) (samples : List Sample) (lo hi : ℕ) :
    ∀ line ∈ printEdges nsPer samples lo hi, Inner line := by
  simp only [printEdges, List.forall_mem_map]
  intro edge _
  apply edgeLine_inner
  intro t
  have hfront : ∀ b ∈ ascii "  ", 0x20 ≤ b.toNat ∧ b.toNat ≤ 0x44 := by decide
  refine ⟨by simp [spaced, padded], fun b hb => ?_⟩
  rcases List.mem_append.mp hb with hb | hb
  · exact hfront b hb
  · exact mem_spaced_field hb

lemma accessLine_inner (nsPer : ℕ) (samples : List Sample) (acc : ℕ) (a : BusAccess) :
    Inner (accessLine nsPer samples acc a) := by
  unfold accessLine
  simp only [List.append_assoc]
  apply inner_field (by decide) (by decide)
  simp only [List.mem_append, lf_hex, lf_spaced, lf_padded (show lf ≠ 0x30 by decide) (lf_decimal acc), not_or]
  repeat' apply And.intro
  all_goals first | exact lf_signal (by decide) _ | (split <;> decide) | decide

lemma wideLines_inner (samples : List Sample) (expect : ℤ) : ∀ line ∈ wideLines samples expect, Inner line := by
  intro line hline
  rcases List.mem_append.mp hline with hline | hline
  · obtain ⟨⟨a, acc⟩, _, hline⟩ := List.mem_flatMap.mp hline
    rcases List.mem_cons.mp hline with rfl | hline
    · exact accessLine_inner 40 samples acc a
    · split at hline
      · exact printEdges_inner _ _ _ _ line hline
      · cases hline
  · rw [List.mem_singleton.mp hline]
    simp only [List.append_assoc]
    apply inner_decimal
    simp only [List.mem_append, lf_decimal, not_or]
    decide

lemma edgeLines_inner (samples : List Sample) : ∀ line ∈ edgeLines samples, Inner line := by
  have hcapped : Inner (ascii "... (edge list capped)") := inner_ascii (by decide) (by decide) rfl
  intro line hline
  rcases List.mem_append.mp hline with hline | hline
  · obtain ⟨edge, _, rfl⟩ := List.mem_map.mp hline
    exact edgeLine_inner (fun t => ⟨by simp [spaced, padded], fun _ => mem_spaced_field⟩) 10 edge
  · split at hline
    · rwa [List.mem_singleton.mp hline]
    · cases hline

/-- A reply of whole lines, of which the last one ends it. -/
structure Proper (reply : List Line) : Prop where
  plain : ∀ line ∈ reply, lf ∉ line
  framed : Framed isEndLine reply

lemma proper_append {body : List Line} {last : Line} (hbody : ∀ line ∈ body, Inner line) (hplain : lf ∉ last)
    (hend : isEndLine last = true) : Proper (body ++ [last]) where
  plain := by
    intro line hline
    rcases List.mem_append.mp hline with hline | hline
    · exact (hbody line hline).plain
    · rwa [List.mem_singleton.mp hline]
  framed := ⟨body, last, rfl, fun line hline => (hbody line hline).goesOn, hend⟩

lemma proper_ok {body : List Line} (hbody : ∀ line ∈ body, Inner line) : Proper (body ++ [okLine]) :=
  proper_append hbody (by decide) isEndLine_okLine

lemma proper_err {reason : Line} (h : lf ∉ reason) : Proper [errLine reason] := by
  have hplain : lf ∉ errLine reason := by
    rw [errLine, List.mem_append, not_or]
    exact ⟨by decide, h⟩
  simpa using proper_append (List.forall_mem_nil Inner) hplain (isEndLine_errLine reason)

/-- Texts and names without line feeds. -/
structure PlainResult (r : ConopResult ConopData) : Prop where
  err : lf ∉ r.err
  entries : ∀ e ∈ r.data.entries, lf ∉ e.name
  rows : ∀ t, lf ∉ (r.data.rows t).name
  ssid : lf ∉ r.data.ssid
  scan : ∀ network ∈ r.data.scan, lf ∉ network.2

def ReplWorld.Plain (w : ReplWorld) : Prop := ∀ q r, w.submit q = some r → PlainResult r

lemma proper_onResult {w : ReplWorld} (hw : w.Plain) (q : Request) {body : ConopResult ConopData → List Line}
    (hbody : ∀ r, PlainResult r → Proper (body r)) : Proper (onResult (w.submit q) body) := by
  unfold onResult
  split
  · exact proper_err (lf_ascii rfl)
  next r hr =>
    split
    · exact hbody r (hw q r hr)
    · exact proper_err (hw q r hr).err

/-- Most handlers end with OK and nothing else. -/
lemma proper_done {w : ReplWorld} (hw : w.Plain) (q : Request) : Proper (onResult (w.submit q) fun _ => [okLine]) :=
  by
  apply proper_onResult hw
  intro _ _
  simpa using proper_ok (List.forall_mem_nil Inner)

lemma proper_usage {text : String} (h : lf ∉ ascii ("usage: " ++ text)) : Proper (usage text) := proper_err h

section
variable {w : ReplWorld} (hw : w.Plain)
include hw

lemma lsLines_inner (backend : Backend) (q : Request) : ∀ line ∈ lsLines backend (w.submit q), Inner line := by
  intro line hline
  unfold lsLines at hline
  split at hline
  · cases hline
  next r hr =>
    obtain ⟨e, he, rfl⟩ := List.mem_map.mp hline
    exact lsLine_inner backend ((hw q r hr).entries e he)

lemma cmdLs_proper : Proper (cmdLs w) := by
  apply proper_ok
  intro line hline
  rcases List.mem_append.mp hline with hline | hline
  · exact lsLines_inner hw .sdcard _ line hline
  · exact lsLines_inner hw .fujinet _ line hline

lemma cmdStatus_proper : Proper (cmdStatus w) := by
  unfold cmdStatus
  split
  · exact proper_err (lf_ascii rfl)
  next r hr =>
    apply proper_ok
    simp only [statusLines, List.forall_mem_map]
    exact fun t _ => statusRow_inner t ((hw _ r hr).rows t)

lemma cmdEject_proper (args : List Line) : Proper (cmdEject w args) := by
  unfold cmdEject
  split
  · exact proper_err (lf_ascii rfl)
  · exact proper_done hw _

lemma cmdMount_proper (args : List Line) : Proper (cmdMount w args) := by
  unfold cmdMount
  split
  · exact proper_err (lf_ascii rfl)
  · exact proper_usage (by decide)
  · split
    · exact proper_usage (by decide)
    · exact proper_done hw _

lemma cmdPeek_proper (args : List Line) : Proper (cmdPeek w args) := by
  unfold cmdPeek
  split
  · apply proper_onResult hw
    intro r _
    apply proper_ok
    simp only [List.forall_mem_map]
    exact fun i _ => peekLine_inner r.data.peek i
  · exact proper_usage (by decide)

lemma cmdCreate_proper (args : List Line) : Proper (cmdCreate w args) := by
  unfold cmdCreate
  split
  · split
    · exact proper_usage (by decide)
    · exact proper_done hw _
  · exact proper_usage (by decide)

lemma cmdRm_proper (args : List Line) : Proper (cmdRm w args) := by
  unfold cmdRm
  split
  · exact proper_usage (by decide)
  · exact proper_done hw _

lemma cmdCopy_proper (args : List Line) : Proper (cmdCopy w args) := by
  unfold cmdCopy
  split
  · exact proper_done hw _
  · exact proper_usage (by decide)

/-- Asking for the WiFi state is the one exception. -/
lemma cmdWifi_proper {args : List Line} (hargs : args ≠ []) : Proper (cmdWifi w args) := by
  unfold cmdWifi
  split
  · contradiction
  · split
    · apply proper_onResult hw
      intro r hr
      apply proper_ok
      simp only [List.forall_mem_map]
      exact fun network hnetwork => scanLine_inner (hr.scan network hnetwork)
    · exact proper_usage (by decide)
  · exact proper_done hw _

end

lemma cmdHelp_proper : Proper cmdHelp := proper_ok helpLines_inner

lemma cmdDiag_proper (w : ReplWorld) : Proper (cmdDiag w) := by
  apply proper_ok
  rw [List.forall_mem_cons]
  constructor
  · split <;> exact inner_cons (by decide) (by decide) (by decide)
  · simp only [List.forall_mem_map]
    exact fun t _ => diagRow_inner w t

lemma cmdBuscap_proper (w : ReplWorld) (args : List Line) : Proper (cmdBuscap w args) := by
  have harmed : Inner (ascii "armed: waiting for XACK edge (run MGSPIN on the Victor)") :=
    inner_ascii (by decide) (by decide) rfl
  unfold cmdBuscap
  dsimp only
  split
  · exact proper_err (lf_ascii rfl)
  · exact proper_err (lf_ascii rfl)
  · exact proper_append (by simpa using harmed) (by decide) (isEndLine_errLine _)
  · apply proper_ok
    rw [List.forall_mem_cons]
    refine ⟨harmed, ?_⟩
    split
    · exact wideLines_inner _ _
    · exact edgeLines_inner _

/-- The name of the network alone decides whether the line passes for an error. -/
lemma isEndLine_wifiLine (data : ConopData) : isEndLine (wifiLine data) = true ↔
    data.ssid = ascii "ERR" ∨ ascii "ERR " <+: data.ssid := by
  have hname : ascii "ERR" = [0x45, 0x52, 0x52] := by decide
  have hdash : ascii "-" = [0x2D] := by decide
  have hspace : space = 0x20 := rfl
  unfold isEndLine wifiLine
  rw [hname, hdash, errMark_eq, okLine_eq, hspace, Bool.or_eq_true, List.isPrefixOf_iff_prefix]
  rcases data.ssid with _ | ⟨a, _ | ⟨b, _ | ⟨c, _ | ⟨d, rest⟩⟩⟩⟩
  · simp
  · simp
  · simp
  · simp [@eq_comm _ a, @eq_comm _ b, @eq_comm _ c]
  · simp

/-- `wifi` alone, about a network whose name is or begins with the word ERR. -/
def Exchange.Ambiguous (e : Exchange) : Prop :=
  e.command = .wifi ∧ e.args = [] ∧ ∃ r, e.world.submit (request .wifiGet) = some r ∧ r.ok = true ∧
    (r.data.ssid = ascii "ERR" ∨ ascii "ERR " <+: r.data.ssid)

lemma lf_wifiLine {data : ConopData} (h : lf ∉ data.ssid) : lf ∉ wifiLine data := by
  have hname : lf ∉ if data.ssid = [] then ascii "-" else data.ssid := by
    split
    · decide
    · exact h
  simp only [wifiLine, List.mem_append, List.mem_cons, hname, lf_ne_space, false_or]
  split <;> decide

lemma cmdWifi_plain {w : ReplWorld} (hw : w.Plain) : ∀ line ∈ cmdWifi w [], lf ∉ line := by
  simp only [cmdWifi, onResult]
  split
  · exact (proper_err (lf_ascii rfl)).plain
  next r hr =>
    split
    · rw [List.forall_mem_append, List.forall_mem_singleton, List.forall_mem_singleton]
      exact ⟨lf_wifiLine (hw _ r hr).ssid, by decide⟩
    · exact (proper_err (hw _ r hr).err).plain

lemma cmdWifi_framed {w : ReplWorld} (hw : w.Plain) :
    Framed isEndLine (cmdWifi w []) ↔ ¬ (Exchange.mk .wifi [] w).Ambiguous := by
  simp only [cmdWifi, onResult, Exchange.Ambiguous, true_and]
  split
  next hbusy =>
    simp only [hbusy, reduceCtorEq, false_and, exists_false, not_false_eq_true, iff_true]
    exact (proper_err (lf_ascii rfl)).framed
  next r hr =>
    simp only [hr, Option.some.injEq, exists_eq_left', not_and]
    split
    next hok =>
      rw [framed_append, ← isEndLine_wifiLine]
      simp [hok]
    next hfailed =>
      simp only [hfailed, Bool.false_eq_true, false_implies, iff_true]
      exact (proper_err (hw _ r hr).err).framed

lemma reply_proper {e : Exchange} (hw : e.world.Plain) (h : e.command ≠ .wifi ∨ e.args ≠ []) : Proper e.reply := by
  obtain ⟨command, args, w⟩ := e
  cases command with
  | help => exact cmdHelp_proper
  | ls => exact cmdLs_proper hw
  | status => exact cmdStatus_proper hw
  | mount => exact cmdMount_proper hw args
  | eject => exact cmdEject_proper hw args
  | peek => exact cmdPeek_proper hw args
  | create => exact cmdCreate_proper hw args
  | copy => exact cmdCopy_proper hw args
  | rm => exact cmdRm_proper hw args
  | wifi => exact cmdWifi_proper hw (by simpa using h)
  | diag => exact cmdDiag_proper w
  | buscap => exact cmdBuscap_proper w args
  | unknown => exact proper_err (lf_ascii rfl)

lemma reply_plain {e : Exchange} (hw : e.world.Plain) : ∀ line ∈ e.reply, lf ∉ line := by
  by_cases h : e.command ≠ .wifi ∨ e.args ≠ []
  · exact (reply_proper hw h).plain
  · obtain ⟨command, args, w⟩ := e
    obtain ⟨rfl, rfl⟩ : command = .wifi ∧ args = [] := by simpa using h
    exact cmdWifi_plain hw

lemma reply_framed {e : Exchange} (hw : e.world.Plain) : Framed isEndLine e.reply ↔ ¬ e.Ambiguous := by
  by_cases h : e.command ≠ .wifi ∨ e.args ≠ []
  · have hclear : ¬ e.Ambiguous := fun hamb => h.elim (· hamb.1) (· hamb.2.1)
    simp [(reply_proper hw h).framed, hclear]
  · obtain ⟨command, args, w⟩ := e
    obtain ⟨rfl, rfl⟩ : command = .wifi ∧ args = [] := by simpa using h
    exact cmdWifi_framed hw

/-- A script that reads lines up to OK or ERR reads every reply of a session whole, one after
the other, unless it asks for the WiFi state of a network with an unlucky name. -/
theorem replies_read_back {session : List Exchange} (hplain : ∀ e ∈ session, e.world.Plain) :
    readReplies lf isEndLine session.length (session.flatMap fun e => render lf e.reply) =
      some (session.map Exchange.reply, []) ↔ ∀ e ∈ session, ¬ e.Ambiguous := by
  have hstop : ∀ reply ∈ session.map Exchange.reply, ∀ line ∈ reply, lf ∉ line := by
    rw [List.forall_mem_map]
    exact fun e he => reply_plain (hplain e he)
  have hsession : readReplies lf isEndLine (session.map Exchange.reply).length
      ((session.map Exchange.reply).flatMap (render lf)) = some (session.map Exchange.reply, []) ↔
        ∀ reply ∈ session.map Exchange.reply, Framed isEndLine reply := readReplies_render hstop
  rw [List.length_map, List.flatMap_map, List.forall_mem_map] at hsession
  rw [hsession]
  exact forall₂_congr fun e he => reply_framed (hplain e he)

/-- A card with one disk, in reach of one network. -/
def benchWorld (ssid : Path) : ReplWorld where
  submit _ := some {
    ok := true
    err := []
    data := {
      entries := [⟨ascii "dos.img", 1024⟩]
      peek := fun _ => 0
      rows := fun t => if t = 0 then ⟨.sdcard, true, 2, ascii "dos.img"⟩ else ⟨.none, false, 0, []⟩
      ssid := ssid
      wifiConnected := true
      scan := [(-40, ssid)] } }
  drdy := true
  targetBackend := fun t => if t = 0 then .sdcard else .none
  isMounted := fun t => t == 0
  buscap := fun _ _ => .timeout

lemma benchWorld_plain {ssid : Path} (h : lf ∉ ssid) : (benchWorld ssid).Plain := by
  intro q r hr
  obtain rfl := Option.some.inj hr
  have hname : lf ∉ ascii "dos.img" := by decide
  constructor
  · simp
  · simpa using hname
  · intro t
    dsimp only
    split
    · exact hname
    · simp
  · exact h
  · simpa using h

/-- The state of the disks, then of the network. -/
def benchSession (ssid : Path) : List Exchange :=
  [⟨.status, [], benchWorld ssid⟩, ⟨.wifi, [], benchWorld ssid⟩]

theorem replies_read_back_near :
    readReplies lf isEndLine 2 ((benchSession (ascii "lab")).flatMap fun e => render lf e.reply) =
      some ((benchSession (ascii "lab")).map Exchange.reply, []) ∧
    readReplies lf isEndLine 2 ((benchSession (ascii "ERR")).flatMap fun e => render lf e.reply) ≠
      some ((benchSession (ascii "ERR")).map Exchange.reply, []) := by
  have hplain : ∀ ssid, lf ∉ ssid → ∀ e ∈ benchSession ssid, e.world.Plain := by
    intro ssid h
    simp [benchSession, benchWorld_plain h]
  have hlab := replies_read_back (hplain (ascii "lab") (by decide))
  have herr := replies_read_back (hplain (ascii "ERR") (by decide))
  constructor
  · apply hlab.mpr
    have hclear : ascii "lab" ≠ ascii "ERR" ∧ ¬ ascii "ERR " <+: ascii "lab" := by decide
    simpa [benchSession, Exchange.Ambiguous, benchWorld] using hclear
  · intro h
    have hwifi := herr.mp h ⟨.wifi, [], benchWorld (ascii "ERR")⟩ (by simp [benchSession])
    exact hwifi ⟨rfl, rfl, _, rfl, rfl, .inl rfl⟩

end PicoV9k.Console
