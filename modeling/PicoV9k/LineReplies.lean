import Mathlib.Tactic

/-!
# Replies made of lines

A stream of lines, each closed by a stop symbol. A reply is a list of lines of which
the last one says that it is the last; a reader knows no more than that.
-/
namespace PicoV9k.Lines

section
variable {α : Type*} {stop : α}

/-- Lines as they are sent. -/
def render (stop : α) (lines : List (List α)) : List α := lines.flatMap (· ++ [stop])

@[simp] lemma render_nil : render stop ([] : List (List α)) = [] := rfl

@[simp] lemma render_cons (line : List α) (lines : List (List α)) :
    render stop (line :: lines) = line ++ stop :: render stop lines := by
  simp [render]

/-- A reply is well formed if its last line, and no other, ends it. -/
def Framed (isEnd : List α → Bool) (reply : List (List α)) : Prop :=
  ∃ before line, reply = before ++ [line] ∧ (∀ l ∈ before, isEnd l = false) ∧ isEnd line = true

lemma framed_append {isEnd : List α → Bool} {before : List (List α)} {line : List α} :
    Framed isEnd (before ++ [line]) ↔ (∀ l ∈ before, isEnd l = false) ∧ isEnd line = true := by
  constructor
  · rintro ⟨others, last, heq, h⟩
    obtain ⟨rfl, hlast⟩ := List.append_inj' heq rfl
    rwa [List.singleton_inj.mp hlast]
  · exact fun h => ⟨before, line, rfl, h⟩

end

variable {α : Type*} [DecidableEq α]

/-- Read lines up to the first that ends a reply; `line` and `lines` are what has been read of it. -/
def readReply (stop : α) (isEnd : List α → Bool) (line : List α) (lines : List (List α)) :
    List α → Option (List (List α) × List α)
  | [] => none
  | a :: rest =>
    if a = stop then
      if isEnd line then some (lines ++ [line], rest) else readReply stop isEnd [] (lines ++ [line]) rest
    else readReply stop isEnd (line ++ [a]) lines rest

/-- Read `n` replies. -/
def readReplies (stop : α) (isEnd : List α → Bool) : ℕ → List α → Option (List (List (List α)) × List α)
  | 0, stream => some ([], stream)
  | n + 1, stream =>
    match readReply stop isEnd [] [] stream with
    | none => none
    | some (reply, rest) => (readReplies stop isEnd n rest).map fun r => (reply :: r.1, r.2)

variable {stop : α} {isEnd : List α → Bool}

lemma readReply_line {line : List α} (hstop : stop ∉ line) (before : List α) (lines : List (List α))
    (rest : List α) : readReply stop isEnd before lines (line ++ stop :: rest) =
      if isEnd (before ++ line) then some (lines ++ [before ++ line], rest)
      else readReply stop isEnd [] (lines ++ [before ++ line]) rest := by
  induction line generalizing before with
  | nil => simp [readReply]
  | cons a line ih =>
    obtain ⟨hne, hline⟩ : ¬ stop = a ∧ stop ∉ line := by simpa using hstop
    rw [List.cons_append, readReply, if_neg (Ne.symm hne), ih hline]
    simp

/-- The first line that ends a reply ends it, whatever the sender meant. -/
lemma readReply_first {before : List (List α)} {line : List α} (hbefore : ∀ l ∈ before, stop ∉ l ∧ isEnd l = false)
    (hstop : stop ∉ line) (hend : isEnd line = true) (lines : List (List α)) (rest : List α) :
    readReply stop isEnd [] lines (render stop (before ++ [line]) ++ rest) =
      some (lines ++ before ++ [line], rest) := by
  induction before generalizing lines with
  | nil => simp [readReply_line hstop, hend]
  | cons l before ih =>
    obtain ⟨hl, hmore⟩ := hbefore l (List.mem_cons_self ..)
    have hrest := ih (fun m hm => hbefore m (List.mem_cons_of_mem l hm)) (lines ++ [l])
    rw [List.cons_append, render_cons, List.append_assoc, List.cons_append, readReply_line hl, List.nil_append,
      if_neg (by simp [hmore]), hrest]
    simp

lemma readReply_framed {reply : List (List α)} (hstop : ∀ l ∈ reply, stop ∉ l) (h : Framed isEnd reply)
    (rest : List α) : readReply stop isEnd [] [] (render stop reply ++ rest) = some (reply, rest) := by
  obtain ⟨before, line, rfl, hbefore, hend⟩ := h
  have hlines : ∀ l ∈ before, stop ∉ l ∧ isEnd l = false :=
    fun l hl => ⟨hstop l (List.mem_append_left _ hl), hbefore l hl⟩
  simpa using readReply_first hlines (hstop line (by simp)) hend [] rest

/-- What a reader takes for a reply is well formed. -/
lemma framed_of_readReply {line : List α} {lines reply : List (List α)} {stream rest : List α}
    (hlines : ∀ l ∈ lines, isEnd l = false) (h : readReply stop isEnd line lines stream = some (reply, rest)) :
    Framed isEnd reply := by
  induction stream generalizing line lines with
  | nil => cases h
  | cons a stream ih =>
    simp only [readReply] at h
    split at h
    · split at h
      next hend =>
        cases h
        exact ⟨lines, line, rfl, hlines, hend⟩
      next hmore =>
        apply ih _ h
        intro l hl
        rcases List.mem_append.mp hl with hl | hl
        · exact hlines l hl
        · rw [List.mem_singleton.mp hl]
          simpa using hmore
    · exact ih hlines h

/-- A session is read back exactly if every reply of it is well formed. -/
theorem readReplies_render {replies : List (List (List α))} (hstop : ∀ reply ∈ replies, ∀ l ∈ reply, stop ∉ l) :
    readReplies stop isEnd replies.length (replies.flatMap (render stop)) = some (replies, []) ↔
      ∀ reply ∈ replies, Framed isEnd reply := by
  induction replies with
  | nil => simp [readReplies]
  | cons reply replies ih =>
    have hhead := hstop reply (List.mem_cons_self ..)
    have htail := ih fun r hr => hstop r (List.mem_cons_of_mem reply hr)
    rw [List.length_cons, List.flatMap_cons, readReplies, List.forall_mem_cons]
    constructor
    · intro h
      split at h
      · cases h
      next first rest hfirst =>
        obtain ⟨⟨others, stream⟩, hothers, heq⟩ := Option.map_eq_some_iff.mp h
        obtain ⟨rfl, rfl⟩ : first = reply ∧ others = replies := by simpa using congrArg Prod.fst heq
        obtain rfl : stream = [] := congrArg Prod.snd heq
        have hframed : Framed isEnd first := framed_of_readReply (by simp) hfirst
        rw [readReply_framed hhead hframed] at hfirst
        obtain rfl : others.flatMap (render stop) = rest := by simpa using hfirst
        exact ⟨hframed, htail.mp hothers⟩
    · rintro ⟨hframed, hothers⟩
      rw [readReply_framed hhead hframed]
      dsimp only
      rw [htail.mpr hothers]
      rfl

section
variable {α : Type*} [DecidableEq α] {stop : α}

/-- The field in front, and what follows its separator. -/
def cutFirst (stop : α) (line : List α) : List α × List α :=
  (line.takeWhile (· ≠ stop), (line.dropWhile (· ≠ stop)).drop 1)

/-- What stands before the last separator, and the field behind it. -/
def cutLast (stop : α) (line : List α) : List α × List α :=
  ((cutFirst stop line.reverse).2.reverse, (cutFirst stop line.reverse).1.reverse)

lemma cutFirst_append {field : List α} (h : stop ∉ field) (rest : List α) :
    cutFirst stop (field ++ stop :: rest) = (field, rest) := by
  have hfield : ∀ a ∈ field, decide (a ≠ stop) = true := by
    intro a ha
    simpa using fun heq : a = stop => h (heq ▸ ha)
  rw [cutFirst, List.takeWhile_append_of_pos hfield, List.dropWhile_append_of_pos hfield]
  simp

lemma cutLast_append {field : List α} (h : stop ∉ field) (front : List α) :
    cutLast stop (front ++ stop :: field) = (front, field) := by
  have hreverse : (front ++ stop :: field).reverse = field.reverse ++ stop :: front.reverse := by simp
  rw [cutLast, hreverse, cutFirst_append (by simpa using h)]
  simp

lemma splitOn_flatMap {β : Type*} {head : List α} {fields : β → List α} (hhead : stop ∉ head)
    (hfields : ∀ b, stop ∉ fields b) (bs : List β) :
    (head ++ bs.flatMap fun b => stop :: fields b).splitOn stop = head :: bs.map fields := by
  have hjoin : head ++ (bs.flatMap fun b => stop :: fields b) = [stop].intercalate (head :: bs.map fields) := by
    induction bs generalizing head with
    | nil => simp
    | cons b bs ih =>
      rw [List.flatMap_cons, List.map_cons, List.intercalate_cons_cons, ← ih (hfields b)]
      simp
  have hclean : ∀ field ∈ head :: bs.map fields, stop ∉ field := by
    rw [List.forall_mem_cons, List.forall_mem_map]
    exact ⟨hhead, fun b _ => hfields b⟩
  rw [hjoin, List.splitOn_intercalate _ hclean (by simp)]

end

end PicoV9k.Lines
