import Mathlib.Data.List.Basic

/-! # Messages said in parts

Someone receives messages and says each of them in parts. What is owed is the
rest of the message that is being said; a message is only received when nothing
is owed, and is done when it was said to its end or cut off (`Step`). Items
that follow these rules are messages one after the other, each complete, the
last one maybe unfinished (`InOrder`). -/
namespace AliceBridge.Lib.Delivery

variable {α : Type*}

inductive Item (α : Type*) where
  | received (message : List α)
  | said (part : List α)
  | cut (rest : List α)

/-- What one item does to what is owed. -/
inductive Step : Option (List α) → Item α → Option (List α) → Prop
  | received {message : List α} : Step none (.received message) (some message)
  | said {part rest : List α} : Step (some (part ++ rest)) (.said part) (some rest)
  | finished {part : List α} : Step (some part) (.said part) none
  | cut {rest : List α} : Step (some rest) (.cut rest) none

inductive Steps : Option (List α) → List (Item α) → Option (List α) → Prop
  | nil {owed : Option (List α)} : Steps owed [] owed
  | cons {owed owed' owed'' : Option (List α)} {e : Item α} {items : List (Item α)} :
      Step owed e owed' → Steps owed' items owed'' → Steps owed (e :: items) owed''

theorem Steps.single {owed owed' : Option (List α)} {e : Item α} (h : Step owed e owed') :
    Steps owed [e] owed' :=
  .cons h .nil

/-- A message that is done: the parts said, and the rest that was cut off. -/
structure Block (α : Type*) where
  message : List α
  parts : List (List α)
  rest : Option (List α)
  whole : parts.flatten ++ rest.getD [] = message

def Block.items (block : Block α) : List (Item α) :=
  .received block.message :: block.parts.map .said ++ (block.rest.map .cut).toList

/-- Messages that are done one after the other, and what is owed of the last one. -/
def InOrder (items : List (Item α)) (owed : Option (List α)) : Prop :=
  ∃ (blocks : List (Block α)) (last : List (Item α)),
    items = blocks.flatMap Block.items ++ last ∧
    match owed with
    | none => last = []
    | some rest => ∃ parts : List (List α),
        last = .received (parts.flatten ++ rest) :: parts.map .said

theorem InOrder.nil : InOrder ([] : List (Item α)) none := ⟨[], [], rfl, rfl⟩

theorem InOrder.step {items : List (Item α)} {owed owed' : Option (List α)} {e : Item α}
    (h : InOrder items owed) (he : Step owed e owed') : InOrder (items ++ [e]) owed' := by
  obtain ⟨blocks, last, rfl, hlast⟩ := h
  cases he with
  | @received message =>
    obtain rfl : last = [] := hlast
    exact ⟨blocks, [.received message], by simp, [], by simp⟩
  | @said part rest =>
    obtain ⟨parts, rfl⟩ := hlast
    exact ⟨blocks, _, by rw [List.append_assoc], parts ++ [part], by simp⟩
  | @finished part =>
    obtain ⟨parts, rfl⟩ := hlast
    let block : Block α := ⟨parts.flatten ++ part, parts ++ [part], none, by simp⟩
    exact ⟨blocks ++ [block], [], by simp [Block.items, block], rfl⟩
  | @cut rest =>
    obtain ⟨parts, rfl⟩ := hlast
    let block : Block α := ⟨parts.flatten ++ rest, parts, some rest, by simp⟩
    exact ⟨blocks ++ [block], [], by simp [Block.items, block], rfl⟩

theorem InOrder.steps {items more : List (Item α)} {owed owed' : Option (List α)}
    (h : InOrder items owed) (hs : Steps owed more owed') : InOrder (items ++ more) owed' := by
  induction hs generalizing items with
  | nil => simpa using h
  | @cons _ _ _ e more hstep _ ih => simpa using ih (h.step hstep)

end AliceBridge.Lib.Delivery
