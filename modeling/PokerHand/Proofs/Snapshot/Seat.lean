import PokerHand.Proofs.Snapshot.Cards
import PokerHand.Snapshot.Seat

/-!
# Seats survive a snapshot

A seat fits when its number is one that an unsigned word holds and its chips are amounts. What the
seat did and what it made may be absent, and neither is ever written as `null`.
-/
namespace PokerHand

open Text.Numeral

theorem Position.faithful : Faithful Position.toJson Position.ofJson? fun _ => True :=
  Json.faithful_name.comp (.ofFind (fun p => by cases p <;> decide) (by decide))
    fun _ _ => trivial

theorem Action.faithful : Faithful Action.toJson Action.ofJson? fun _ => True :=
  Json.faithful_name.comp (.ofFind (fun a => by cases a <;> decide) (by decide))
    fun _ _ => trivial

structure LastAction.Fits (l : LastAction) : Prop where
  seat : l.seat < countBound
  value : isAmount l.value

theorem LastAction.faithful : Faithful LastAction.toJson LastAction.ofJson? LastAction.Fits where
  read_write := by
    intro l h
    have hcols : l.toJson.columns ["source", "type", "value"] 0 =
        some [some (.nat l.seat), some l.action.toJson, some (.int l.value)] := rfl
    rw [LastAction.ofJson?, Json.columns_bind hcols]
    simp [Json.faithful_count.need h.seat, Action.faithful.need, Json.faithful_amount.need h.value]
  fits := by
    intro j l h
    obtain ⟨cols, -, h⟩ := Option.bind_eq_some_iff.1 h
    split at h
    · obtain ⟨seat, hseat, h⟩ := Json.faithful_count.of_need h
      obtain ⟨action, -, h⟩ := Action.faithful.of_need h
      obtain ⟨value, hvalue, h⟩ := Json.faithful_amount.of_need h
      obtain rfl := Option.some.inj h
      exact ⟨hseat, hvalue⟩
    · cases h

structure Seat.Fits (s : Seat) : Prop where
  number : s.number < countBound
  bankroll : isAmount s.bankroll
  initialStack : isAmount s.initialStack
  stack : isAmount s.stack
  pot : isAmount s.pot
  wager : isAmount s.wager
  made : ∀ m ∈ s.made, m.Fits

theorem Seat.faithful : Faithful Seat.toJson Seat.ofJson? Seat.Fits where
  read_write := by
    intro s h
    have hcols : s.toJson.columns ["idx", "positions", "bankroll", "initial_stack_size",
        "stack_size", "pot", "wager", "fold", "acted", "did_action", "allowed_actions",
        "hole_cards", "combination"] 0 =
      some [some (.nat s.number), some (.ofList Position.toJson s.positions),
        some (.int s.bankroll), some (.int s.initialStack), some (.int s.stack), some (.int s.pot),
        some (.int s.wager), some (.bool s.folded), some (.bool s.acted),
        some (.ofOption Action.toJson s.did), some (.ofList Action.toJson s.allowed),
        some (Card.listToJson s.hole), some (.ofOption MadeHand.toJson s.made)] := rfl
    have hpositions := (Json.faithful_list Position.faithful).need fun p (_ : p ∈ s.positions) =>
      trivial
    have hdid := Action.faithful.may nofun fun a (_ : a ∈ s.did) => trivial
    have hallowed := (Json.faithful_list Action.faithful).need fun a (_ : a ∈ s.allowed) => trivial
    have hmade := MadeHand.faithful.may MadeHand.toJson_ne_null h.made
    rw [Seat.ofJson?, Json.columns_bind hcols]
    dsimp only
    rw [Json.faithful_count.need h.number, hpositions, Json.faithful_amount.need h.bankroll,
      Json.faithful_amount.need h.initialStack, Json.faithful_amount.need h.stack,
      Json.faithful_amount.need h.pot, Json.faithful_amount.need h.wager,
      Json.faithful_bool.need trivial, Json.faithful_bool.need trivial, hdid, hallowed,
      Card.list_faithful.need trivial, hmade]
    rfl
  fits := by
    intro j s h
    obtain ⟨cols, -, h⟩ := Option.bind_eq_some_iff.1 h
    split at h
    · obtain ⟨number, hnumber, h⟩ := Json.faithful_count.of_need h
      obtain ⟨positions, -, h⟩ := (Json.faithful_list Position.faithful).of_need h
      obtain ⟨bankroll, hbankroll, h⟩ := Json.faithful_amount.of_need h
      obtain ⟨initialStack, hinitialStack, h⟩ := Json.faithful_amount.of_need h
      obtain ⟨stack, hstack, h⟩ := Json.faithful_amount.of_need h
      obtain ⟨pot, hpot, h⟩ := Json.faithful_amount.of_need h
      obtain ⟨wager, hwager, h⟩ := Json.faithful_amount.of_need h
      obtain ⟨folded, -, h⟩ := Json.faithful_bool.of_need h
      obtain ⟨acted, -, h⟩ := Json.faithful_bool.of_need h
      obtain ⟨did, -, h⟩ := Action.faithful.of_may h
      obtain ⟨allowed, -, h⟩ := (Json.faithful_list Action.faithful).of_need h
      obtain ⟨hole, -, h⟩ := Card.list_faithful.of_need h
      obtain ⟨made, hmade, h⟩ := MadeHand.faithful.of_may h
      obtain rfl := Option.some.inj h
      exact ⟨hnumber, hbankroll, hinitialStack, hstack, hpot, hwager, hmade⟩
    · cases h

end PokerHand
