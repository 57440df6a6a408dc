import Mathlib.Data.List.Basic

/-!
# Texts that can be read back

A text tells an item if, followed by anything that may follow it, it is the text of no
other item, and what follows is determined too.  `told_pieces` is the rule for a text
made of pieces up to an end mark, `told_run` for the longest run of letters of
a class, and `told_bracketed` for items between brackets with a separator between them.
-/

namespace Framing

variable {α β : Type}

/-- Among the items of `good`, followed by rests of `stop`, the text of `a` tells `a`
and the rest. -/
def Told (text : α → List β) (good : α → Prop) (stop : List β → Prop) (a : α) : Prop :=
  ∀ b rest rest', good b → stop rest → stop rest' → text a ++ rest = text b ++ rest' →
    a = b ∧ rest = rest'

variable {text : α → List β} {good : α → Prop} {stop : List β → Prop} {mark : β}

/-- A text that tells its item is the text of no other when nothing follows. -/
theorem Told.eq {a b : α} (told : Told text good stop a) (empty : stop []) (goodB : good b)
    (same : text a = text b) : a = b :=
  (told b [] [] goodB empty empty (by rw [same])).1

/-- Two texts with a mark between them. -/
theorem Told.pair {γ : Type} {left : α → List β} {right : γ → List β} {goodL : α → Prop}
    {goodR : γ → Prop} {a : α} {c : γ}
    (toldLeft : Told left goodL (fun rest => ∃ tail, rest = mark :: tail) a)
    (toldRight : Told right goodR stop c) :
    Told (fun pair : α × γ => left pair.1 ++ mark :: right pair.2)
      (fun pair => goodL pair.1 ∧ goodR pair.2) stop (a, c) := by
  rintro ⟨b, d⟩ rest rest' good stops stops' same
  simp only [List.append_assoc, List.cons_append] at same
  obtain ⟨rfl, later⟩ := toldLeft b _ _ good.1 ⟨_, rfl⟩ ⟨_, rfl⟩ same
  obtain ⟨rfl, rfl⟩ := toldRight d rest rest' good.2 stops stops' (List.cons.inj later).2
  exact ⟨rfl, rfl⟩

/-- Pieces are read one by one up to an end mark, which begins no piece. -/
theorem told_pieces {piece : α → List β}
    (begins : ∀ a, ∃ first tail, piece a = first :: tail ∧ first ≠ mark)
    (stops : ∀ (word : List α) rest, stop (word.flatMap piece ++ mark :: rest)) {word : List α}
    (pieces : ∀ a ∈ word, Told piece good stop a) :
    Told (fun word : List α => word.flatMap piece ++ [mark]) (fun word => ∀ a ∈ word, good a)
      (fun _ => True) word := by
  have opens : ∀ (a : α) (word : List α) rest rest',
      (a :: word).flatMap piece ++ [mark] ++ rest ≠ mark :: rest' := by
    intro a word rest rest' same
    obtain ⟨first, tail, isPiece, apart⟩ := begins a
    rw [List.flatMap_cons, isPiece] at same
    exact apart (List.cons.inj same).1
  induction word with
  | nil =>
    intro other rest rest' _ _ _ same
    cases other with
    | nil => exact ⟨rfl, by simpa using same⟩
    | cons b other => exact absurd same.symm (opens b other _ _)
  | cons a word ih =>
    intro other rest rest' goodO _ _ same
    rw [List.forall_mem_cons] at pieces
    cases other with
    | nil => exact absurd same (opens a word _ _)
    | cons b other =>
      rw [List.forall_mem_cons] at goodO
      simp only [List.flatMap_cons, List.append_assoc] at same
      obtain ⟨rfl, later⟩ := pieces.1 b _ _ goodO.1 (stops word rest) (stops other rest') same
      obtain ⟨rfl, rfl⟩ := ih pieces.2 other rest rest' goodO.2 trivial trivial
        (by simpa using later)
      exact ⟨rfl, rfl⟩

/-- A run of letters ends where the class ends. -/
theorem told_run {run : β → Bool} {a : α} (inside : ∀ a, good a → ∀ b ∈ text a, run b = true)
    (injective : ∀ b, good b → text a = text b → a = b) (goodA : good a) :
    Told text good (fun rest => ∀ b tail, rest = b :: tail → run b = false) a := by
  intro b rest rest' goodB stops stops' same
  have ends : ∀ rest : List β, (∀ b tail, rest = b :: tail → run b = false) →
      rest.takeWhile run = [] := by
    intro rest stops
    cases rest with
    | nil => rfl
    | cons b tail => simp [stops b tail rfl]
  have runs := congrArg (List.takeWhile run) same
  rw [List.takeWhile_append_of_pos (inside a goodA), List.takeWhile_append_of_pos (inside b goodB),
    ends rest stops, ends rest' stops', List.append_nil, List.append_nil] at runs
  obtain rfl := injective b goodB runs
  exact ⟨rfl, List.append_cancel_left same⟩

/-- A text is split in one way at the last of its marks. -/
theorem last_mark_inj {left left' rest rest' : List β} (last : mark ∉ rest) (last' : mark ∉ rest')
    (same : left ++ mark :: rest = left' ++ mark :: rest') : left = left' ∧ rest = rest' := by
  induction left generalizing left' with
  | nil =>
    cases left' with
    | nil => exact ⟨rfl, (List.cons.inj same).2⟩
    | cons b left' => exact absurd ((List.cons.inj same).2 ▸ by simp) last
  | cons b left ih =>
    cases left' with
    | nil => exact absurd ((List.cons.inj same).2 ▸ by simp) last'
    | cons c left' =>
      obtain ⟨rfl, later⟩ := List.cons.inj same
      obtain ⟨rfl, rfl⟩ := ih later
      exact ⟨rfl, rfl⟩

/-! ## Items between brackets -/

/-- Items with a separator between them. -/
def separated (separator : β) (texts : List (List β)) : List β :=
  [separator].intercalate texts

theorem separated_cons (separator : β) (text : List β) (texts : List (List β)) :
    separated separator (text :: texts) =
      text ++ texts.flatMap fun other => separator :: other := by
  induction texts generalizing text with
  | nil => simp [separated, List.intercalate]
  | cons other texts ih =>
    have step : separated separator (text :: other :: texts) =
        text ++ [separator] ++ separated separator (other :: texts) :=
      List.intercalate_cons_cons
    rw [step, ih other]
    simp

theorem separated_nil {separator : β} : separated separator [] = [] := rfl

theorem mem_separated {separator b : β} {texts : List (List β)}
    (held : b ∈ separated separator texts) : b = separator ∨ ∃ text ∈ texts, b ∈ text := by
  cases texts with
  | nil => cases held
  | cons text texts =>
    rw [separated_cons, List.mem_append, List.mem_flatMap] at held
    rcases held with first | ⟨other, member, held⟩
    · exact .inr ⟨text, List.mem_cons_self, first⟩
    · exact (List.mem_cons.mp held).imp id fun held => ⟨other, List.mem_cons_of_mem _ member, held⟩

section Items

variable {text : α → List β} {good : α → Prop} {separator close : β}

/-- What may follow an item: a separator or the closing bracket. -/
def Follows (separator close : β) (rest : List β) : Prop :=
  (∃ tail, rest = separator :: tail) ∨ ∃ tail, rest = close :: tail

theorem follows_rest (items : List α) (rest : List β) :
    Follows separator close ((items.flatMap fun a => separator :: text a) ++ close :: rest) := by
  cases items with
  | nil => exact .inr ⟨rest, rfl⟩
  | cons a items => exact .inl ⟨_, rfl⟩

/-- The items after the first. -/
theorem told_tail (apart : separator ≠ close) {left : List α}
    (items : ∀ a ∈ left, Told text good (Follows separator close) a) :
    Told (fun items : List α => (items.flatMap fun a => separator :: text a) ++ [close])
      (fun items => ∀ a ∈ items, good a) (fun _ => True) left := by
  refine told_pieces (fun a => ⟨separator, text a, rfl, apart⟩) follows_rest ?_
  intro a held b rest rest' goodB stops stops' same
  exact items a held b rest rest' goodB stops stops' (List.cons.inj same).2

/-- Items between brackets are read one by one. -/
theorem told_bracketed (apart : separator ≠ close)
    (begins : ∀ a, good a → ∃ first tail, text a = first :: tail ∧ first ≠ close) {left : List α}
    (goodL : ∀ a ∈ left, good a) (items : ∀ a ∈ left, Told text good (Follows separator close) a) :
    Told (fun items : List α => separated separator (items.map text) ++ [close])
      (fun items => ∀ a ∈ items, good a) (fun _ => True) left := by
  have opens : ∀ (a : α) (items : List α) rest rest', good a →
      separated separator ((a :: items).map text) ++ [close] ++ rest ≠ close :: rest' := by
    intro a items rest rest' goodA same
    obtain ⟨first, tail, texted, other⟩ := begins a goodA
    rw [List.map_cons, separated_cons, texted] at same
    exact other (List.cons.inj same).1
  intro right rest rest' goodR _ _ same
  cases left with
  | nil =>
    cases right with
    | nil => exact ⟨rfl, by simpa [separated] using same⟩
    | cons b right => exact absurd same.symm (opens b right _ _ (goodR b (by simp)))
  | cons a left =>
    rw [List.forall_mem_cons] at goodL items
    cases right with
    | nil => exact absurd same (opens a left _ _ goodL.1)
    | cons b right =>
      rw [List.forall_mem_cons] at goodR
      simp only [List.map_cons, separated_cons, List.flatMap_map, List.append_assoc,
        List.cons_append, List.nil_append] at same
      obtain ⟨rfl, later⟩ := items.1 b _ _ goodR.1 (follows_rest left rest)
        (follows_rest right rest') same
      obtain ⟨rfl, rfl⟩ := told_tail apart items.2 right rest rest' goodR.2
        trivial trivial (by simpa using later)
      exact ⟨rfl, rfl⟩

end Items

end Framing
