import PicoV9k.StorageRouting
import PicoV9k.TraceSimulation

/-!
# The image shelf

What a storage backend is for: image files of sectors, of which each target holds one
or none. A sector comes out as it was last stored, whatever happened in between.
-/
namespace PicoV9k.Storage
open PicoV9k.Bus PicoV9k.Runs

/-- The image each target holds, and the sectors of every image. -/
structure Shelf where
  image : ℕ → Option Path
  disks : Path → ℕ → Sector

/-- How a call ends for the user of a backend. -/
inductive Answer
  | mounted (target : ℕ) (image : Path)
  | unmounted (target : ℕ)
  | read (target lba : ℕ) (data : Sector)
  | written (target lba : ℕ) (data : Sector)
  | torn (target lba : ℕ)
  | nothing

def Shelf.initial (disks : Path → ℕ → Sector) : Shelf := ⟨fun _ => none, disks⟩

def Shelf.insert (d : Shelf) (t : ℕ) (image : Option Path) : Shelf :=
  { d with image := Function.update d.image t image }

def Shelf.dropped (d : Shelf) (gone : ℕ → Bool) : Shelf :=
  { d with image := fun t => if gone t then none else d.image t }

def Shelf.stored (d : Shelf) (image : Path) (lba : ℕ) (data : Sector) : Shelf :=
  { d with disks := Function.update d.disks image (Function.update (d.disks image) lba data) }

/-- A call may cost targets their image. A sector changes in a write of it only, and one that fails may
leave anything there. -/
inductive Shelf.Step : Shelf → Answer → Shelf → Prop
  | mounted (d : Shelf) (gone : ℕ → Bool) (t : ℕ) (p : Path) :
      Step d (.mounted t p) ((d.dropped gone).insert t (some p))
  | unmounted (d : Shelf) (t : ℕ) : Step d (.unmounted t) (d.insert t none)
  | read {d : Shelf} {t : ℕ} {p : Path} (h : d.image t = some p) (gone : ℕ → Bool) (lba : ℕ) :
      Step d (.read t lba (d.disks p lba)) (d.dropped gone)
  | written {d : Shelf} {t : ℕ} {p : Path} (h : d.image t = some p) (gone : ℕ → Bool) (lba : ℕ)
      (data : Sector) : Step d (.written t lba data) ((d.stored p lba data).dropped gone)
  | torn {d : Shelf} {t : ℕ} {p : Path} (h : d.image t = some p) (gone : ℕ → Bool) (lba : ℕ)
      (left : Sector) : Step d (.torn t lba) ((d.stored p lba left).dropped gone)
  | refused (d : Shelf) (t lba : ℕ) : Step d (.torn t lba) d
  | nothing (d : Shelf) (gone : ℕ → Bool) : Step d .nothing (d.dropped gone)

variable (d : Shelf)

@[simp] lemma Shelf.dropped_none : (d.dropped fun _ => false) = d := rfl

@[simp] lemma Shelf.dropped_dropped (gone gone' : ℕ → Bool) :
    (d.dropped gone).dropped gone' = d.dropped fun t => gone' t || gone t := by
  unfold Shelf.dropped
  congr 1
  funext t
  cases hgone : gone' t <;> simp [hgone]

lemma Shelf.stored_dropped (gone : ℕ → Bool) (p : Path) (lba : ℕ) (data : Sector) :
    (d.dropped gone).stored p lba data = (d.stored p lba data).dropped gone := rfl

@[simp] lemma Shelf.stored_stored (p : Path) (lba : ℕ) (a b : Sector) :
    (d.stored p lba a).stored p lba b = d.stored p lba b := by
  simp [Shelf.stored]

@[simp] lemma Shelf.stored_self (p : Path) (lba : ℕ) : d.stored p lba (d.disks p lba) = d := by
  simp [Shelf.stored]

end PicoV9k.Storage
