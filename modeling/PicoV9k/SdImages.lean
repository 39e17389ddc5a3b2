import PicoV9k.SdStorage
import PicoV9k.TransitionRun

/-!
# Creating and copying images

`sd_storage_create_image` in one call, `sd_storage_copy_begin` and the steps of a copy
spread over the service loop. Whatever fails on the way, no partial image is to stay on
the card, which rests on the file being closed before it is unlinked.
-/
namespace PicoV9k.Storage
open PicoV9k.Bus PicoV9k.Runs

/-- An `f_close` succeeds, fails with the handle gone, or fails with the handle still open; a failure
leaves some content in the file. -/
inductive CloseAnswer
  | closed
  | ended (left : List Byte)
  | stuck (left : List Byte)
  deriving DecidableEq

def CloseAnswer.ok : CloseAnswer → Bool
  | .closed => true
  | _ => false

/-- The handle does not outlive the call. -/
def CloseAnswer.Ends : CloseAnswer → Prop
  | .stuck _ => False
  | _ => True

structure CopyJob where
  src : Path
  dst : Path
  pos : ℕ
  deriving DecidableEq

/-- The card's files, those that an open handle locks, and `sd_copy` while it is active. -/
structure ImageCard where
  ready : Bool
  files : Path → Option (List Byte)
  locked : Path → Bool
  job : Option CopyJob

def ImageCard.setFile (c : ImageCard) (p : Path) (content : Option (List Byte)) : ImageCard :=
  { c with files := Function.update c.files p content }

def ImageCard.setLock (c : ImageCard) (p : Path) (lock : Bool) : ImageCard :=
  { c with locked := Function.update c.locked p lock }

/-- `f_open` with `FA_CREATE_NEW`. -/
def ImageCard.createNew (c : ImageCard) (p : Path) : ImageCard := (c.setFile p (some [])).setLock p true

def ImageCard.close (c : ImageCard) (p : Path) : CloseAnswer → ImageCard
  | .closed => c.setLock p false
  | .ended left => (c.setFile p (some left)).setLock p false
  | .stuck left => c.setFile p (some left)

/-- `f_unlink` refuses an open file. -/
def ImageCard.unlink (c : ImageCard) (p : Path) : ImageCard := if c.locked p then c else c.setFile p none

def openErrStr (fr : FResult) (forWrite : Bool) : String :=
  if fr = .exist then "destination exists"
  else if fr = .locked then "image is mounted (eject first)"
  else if forWrite then "cannot create file" else "cannot open source"

/-- The result of opening a file for reading, unless something else is wrong. -/
def ImageCard.openResult (c : ImageCard) (p : Path) (fr : FResult) : FResult :=
  if fr ≠ .ok then fr else if (c.files p).isSome then .ok else .noFile

/-- The result of opening a new file, unless something else is wrong. -/
def ImageCard.createResult (c : ImageCard) (p : Path) (fr : FResult) : FResult :=
  if fr ≠ .ok then fr else if (c.files p).isSome then .exist else .ok

/-- FatFS during one creation; `fill` is what newly allocated clusters hold. -/
structure CreateIo where
  open_ : FResult
  expand : FResult
  extend : FResult × ℕ
  fill : ℕ → Byte
  rewind : FResult
  write : ℕ → FResult × ℕ
  close : CloseAnswer

def writeAt (content : List Byte) (pos : ℕ) (data : List Byte) : List Byte :=
  content.take pos ++ data ++ content.drop (pos + data.length)

/-- The sixteen writes of zeros, with `left` of them to go. -/
def zeroRounds (io : CreateIo) : ℕ → List Byte → List Byte × Option String
  | 0, content => (content, none)
  | left + 1, content =>
    let i := 16 - (left + 1)
    let answer := io.write i
    let content := writeAt content (4096 * i) (List.replicate (min answer.2 4096) 0)
    if answer.1 ≠ .ok ∨ answer.2 ≠ 4096 then (content, some "write failed")
    else zeroRounds io left content

/-- The body of the new file before it is closed. -/
def createBody (io : CreateIo) (bytes : ℕ) : List Byte × Option String :=
  if io.expand ≠ .ok ∧ (io.extend.1 ≠ .ok ∨ io.extend.2 ≠ bytes) then
    ((List.range io.extend.2).map io.fill, some "card full")
  else
    let content := (List.range bytes).map io.fill
    if io.rewind ≠ .ok then (content, some "seek failed") else zeroRounds io 16 content

def sdStorageCreateImage (io : CreateIo) (c : ImageCard) (name : Path) (sizeMb : ℕ) :
    ImageCard × Option String :=
  if !c.ready then (c, some "no SD card")
  else if !matchesPattern name then (c, some "name must end .img")
  else if sizeMb < 1 ∨ 512 < sizeMb then (c, some "size must be 1-512 MB")
  else
    let fr := c.createResult name io.open_
    if fr ≠ .ok then (c, some (openErrStr fr true))
    else
      let body := createBody io (sizeMb <<< 20)
      let c := ((c.createNew name).setFile name (some body.1)).close name io.close
      let err := if !io.close.ok ∧ body.2 = none then some "close failed" else body.2
      if err ≠ none then (c.unlink name, err) else (c, none)

structure BeginIo where
  openIn : FResult
  openOut : FResult

/-- One read and one write of a copy; a failed write leaves `junk` behind. -/
structure RoundIo where
  read : FResult
  write : FResult × ℕ
  junk : List Byte

structure CopyIo where
  rounds : ℕ → RoundIo
  closeOut : CloseAnswer

inductive CopyStep
  | failed (err : String)
  | done
  | more
  deriving DecidableEq

def sdStorageCopyBegin (io : BeginIo) (c : ImageCard) (src dst : Path) : ImageCard × Option String :=
  if !c.ready then (c, some "no SD card")
  else if c.job.isSome then (c, some "copy already running")
  else if !matchesPattern dst then (c, some "name must end .img")
  else if 64 ≤ dst.length then (c, some "name too long")
  else
    let fr := c.openResult src io.openIn
    if fr ≠ .ok then (c, some (openErrStr fr false))
    else
      let fr := c.createResult dst io.openOut
      if fr ≠ .ok then (c, some (openErrStr fr true))
      else ({ c.createNew dst with job := some ⟨src, dst, 0⟩ }, none)

/-- `sd_copy_finish(true)`. -/
def sdCopyFinish (io : CopyIo) (c : ImageCard) (dst : Path) : ImageCard :=
  { (c.close dst io.closeOut).unlink dst with job := none }

/-- The rounds of one step, with `left` of its eight to go. -/
def copyRounds (io : CopyIo) : ℕ → ImageCard → CopyJob → ImageCard × CopyStep
  | 0, c, job => ({ c with job := some job }, .more)
  | left + 1, c, job =>
    let round := io.rounds (8 - (left + 1))
    if round.read ≠ .ok then (sdCopyFinish io c job.dst, .failed "read failed")
    else
      let chunk := (((c.files job.src).getD []).drop job.pos).take 4096
      if chunk = [] then
        let c := c.close job.dst io.closeOut
        if io.closeOut.ok then ({ c with job := none }, .done)
        else ({ c.unlink job.dst with job := none }, .failed "close failed")
      else
        let written := if round.write.1 = .ok then chunk.take round.write.2 else round.junk
        let c := c.setFile job.dst (some ((c.files job.dst).getD [] ++ written))
        if round.write.1 ≠ .ok ∨ round.write.2 ≠ chunk.length then
          (sdCopyFinish io c job.dst, .failed "write failed (card full?)")
        else copyRounds io left c { job with pos := job.pos + chunk.length }

def sdStorageCopyStep (io : CopyIo) (c : ImageCard) : ImageCard × CopyStep :=
  match c.job with
  | none => (c, .failed "no copy running")
  | some job => copyRounds io 8 c job

end PicoV9k.Storage
