import PicoV9k.StorageRouting

/-!
# The scan for disk images

The root directory is read in card order, filtered by `matches_pattern`, capped
and sorted case-insensitively. A directory is the list of the names `f_readdir`
delivers.
-/
namespace PicoV9k.Storage
open PicoV9k.Bus

def maxImgFiles : ℕ := 8

/-- A path copied into a 64-byte field. -/
def truncatePath (p : Path) : Path := p.take 63

def toLower (b : Byte) : ℕ := if 0x41 ≤ b.toNat ∧ b.toNat ≤ 0x5A then b.toNat + 0x20 else b.toNat

/-- The key that `strcasecmp` compares; the end of the string sorts first. -/
def foldCase (p : Path) : List ℕ := p.map toLower

/-- `strcasecmp(a, b) > 0`. -/
def strcasecmpGt (a b : Path) : Bool := decide (foldCase b < foldCase a)

/-- ".img" -/
def imgExtension : Path := [0x2E, 0x69, 0x6D, 0x67]

def matchesPattern (filename : Path) : Bool :=
  if filename.length < 5 then false
  else if filename.head? = some 0x2E then false
  else foldCase (filename.drop (filename.length - 4)) == foldCase imgExtension

/-- The scan loop of `sd_storage_init`: an empty name ends the directory, a full
table ends the scan. -/
def scanNames : List Path → List Path → List Path
  | [], found => found
  | fname :: rest, found =>
    if fname = [] ∨ maxImgFiles ≤ found.length then found
    else if matchesPattern fname then scanNames rest (found ++ [truncatePath fname])
    else scanNames rest found

/-- The inner loop of the sort, on the sorted prefix from its right end: larger
names are shifted up and `key` takes the free place. -/
def shiftInsert (key : Path) : List Path → List Path
  | [] => [key]
  | name :: names => if strcasecmpGt name key then name :: shiftInsert key names else key :: name :: names

def sortNames (names : List Path) : List Path :=
  (names.foldl (fun sorted key => shiftInsert key sorted) []).reverse

/-- On a directory of non-empty names the scan keeps the first matching ones. -/
lemma scanNames_eq {entries : List Path} (hnamed : ∀ p ∈ entries, p ≠ []) (found : List Path) :
    scanNames entries found =
      found ++ ((entries.filter matchesPattern).map truncatePath).take (maxImgFiles - found.length) := by
  induction entries generalizing found with
  | nil => simp [scanNames]
  | cons fname rest ih =>
    have hrest : ∀ p ∈ rest, p ≠ [] := fun p hp => hnamed p (List.mem_cons_of_mem _ hp)
    have hfname : fname ≠ [] := hnamed fname List.mem_cons_self
    rcases Nat.lt_or_ge found.length maxImgFiles with hlt | hge
    · have hroom : maxImgFiles - found.length = maxImgFiles - (found.length + 1) + 1 := by omega
      cases hm : matchesPattern fname with
      | true =>
        simp [scanNames, hfname, Nat.not_le.mpr hlt, hm, ih hrest, hroom]
      | false => simp [scanNames, hfname, Nat.not_le.mpr hlt, hm, ih hrest]
    · simp [scanNames, hge]

lemma shiftInsert_perm (key : Path) (names : List Path) :
    (shiftInsert key names).Perm (key :: names) := by
  induction names with
  | nil => exact List.Perm.refl _
  | cons name names ih =>
    unfold shiftInsert
    split
    · exact (ih.cons name).trans (List.Perm.swap key name names)
    · exact List.Perm.refl _

/-- Descending by folded name: the array of the sort, read from its right end. -/
def Descending (names : List Path) : Prop := names.Pairwise fun a b => foldCase b ≤ foldCase a

lemma shiftInsert_descending {key : Path} {names : List Path} (h : Descending names) :
    Descending (shiftInsert key names) := by
  induction names with
  | nil => exact List.pairwise_singleton _ _
  | cons name names ih =>
    obtain ⟨hname, hnames⟩ := List.pairwise_cons.mp h
    unfold shiftInsert
    split
    next hgt =>
      have hkey : foldCase key < foldCase name := by simpa [strcasecmpGt] using hgt
      refine List.pairwise_cons.mpr ⟨fun x hx => ?_, ih hnames⟩
      rcases List.mem_cons.mp ((shiftInsert_perm key names).mem_iff.mp hx) with rfl | hx
      · exact hkey.le
      · exact hname x hx
    next hle =>
      have hkey : foldCase name ≤ foldCase key := by simpa [strcasecmpGt] using hle
      refine List.pairwise_cons.mpr ⟨fun x hx => ?_, h⟩
      rcases List.mem_cons.mp hx with rfl | hx
      · exact hkey
      · exact (hname x hx).trans hkey

/-- The outer loop keeps a descending permutation of what it has consumed. -/
lemma foldl_shiftInsert (names sorted : List Path) (h : Descending sorted) :
    (names.foldl (fun sorted key => shiftInsert key sorted) sorted).Perm (names ++ sorted) ∧
      Descending (names.foldl (fun sorted key => shiftInsert key sorted) sorted) := by
  induction names generalizing sorted with
  | nil => exact ⟨List.Perm.refl _, h⟩
  | cons key names ih =>
    obtain ⟨hperm, hdesc⟩ := ih (shiftInsert key sorted) (shiftInsert_descending h)
    refine ⟨hperm.trans ?_, hdesc⟩
    exact ((shiftInsert_perm key sorted).append_left names).trans List.perm_middle

lemma sortNames_perm (names : List Path) : (sortNames names).Perm names := by
  have h := (foldl_shiftInsert names [] List.Pairwise.nil).1
  rw [List.append_nil] at h
  exact (List.reverse_perm _).trans h

lemma sortNames_ascending (names : List Path) :
    (sortNames names).Pairwise fun a b => foldCase a ≤ foldCase b :=
  List.pairwise_reverse.mpr (foldl_shiftInsert names [] List.Pairwise.nil).2

end PicoV9k.Storage
