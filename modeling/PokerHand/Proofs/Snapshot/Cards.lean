import PokerHand.Proofs.Snapshot.Faithful
import PokerHand.Snapshot.Cards

/-!
# Cards and scores survive a snapshot

A card reads back from its two letters and a category from its name. The offsets of an order are
not written: the ranking is, and they follow from it.
-/
namespace PokerHand

theorem Card.symbol_faithful : Faithful Card.symbol Card.ofText? fun _ => True where
  read_write := by
    have hall : ∀ s ∈ Suit.all, ∀ r ∈ Rank.all,
        Card.ofText? (Card.mk s r).symbol = some ⟨s, r⟩ := by decide
    intro c _
    exact hall c.suit (Suit.mem_all c.suit) c.rank (Rank.mem_all c.rank)
  fits := fun _ => trivial

theorem Card.faithful : Faithful Card.toJson Card.ofJson? fun _ => True :=
  Json.faithful_text.comp Card.symbol_faithful fun _ _ => trivial

theorem Card.list_faithful : Faithful Card.listToJson Card.listOfJson? fun _ => True :=
  (Json.faithful_list Card.faithful).total fun _ _ _ => trivial

theorem Category.faithful : Faithful Category.toJson Category.ofJson? fun _ => True :=
  Json.faithful_name.comp (.ofFind Category.mem_all (by decide)) fun _ _ => trivial

theorem Order.ranking_faithful :
    Faithful Order.ranking (fun ranking => (Order.ofList ranking).toOption) fun _ => True where
  read_write := by
    intro order _
    rw [Order.ofList, dif_pos order.complete]
    rfl
  fits := fun _ => trivial

theorem Order.faithful : Faithful Order.toJson Order.ofJson? fun _ => True :=
  (Json.faithful_list Category.faithful).comp Order.ranking_faithful fun _ _ _ _ => trivial

/-- The power is a number that an unsigned word holds. -/
def MadeHand.Fits (m : MadeHand) : Prop := m.power < Text.Numeral.countBound

theorem MadeHand.faithful : Faithful MadeHand.toJson MadeHand.ofJson? MadeHand.Fits where
  read_write := by
    intro m h
    have hcols : m.toJson.columns ["type", "cards", "power"] 0 =
        some [some m.category.toJson, some (Card.listToJson m.cards), some (.nat m.power)] := rfl
    rw [MadeHand.ofJson?, Json.columns_bind hcols]
    simp [Category.faithful.need, Card.list_faithful.need,
      Json.faithful_count.need h]
  fits := by
    intro j m h
    obtain ⟨cols, -, h⟩ := Option.bind_eq_some_iff.1 h
    split at h
    · obtain ⟨category, -, h⟩ := Category.faithful.of_need h
      obtain ⟨cards, -, h⟩ := Card.list_faithful.of_need h
      obtain ⟨power, hpower, h⟩ := Json.faithful_count.of_need h
      obtain rfl := Option.some.inj h
      exact hpower
    · cases h

theorem MadeHand.toJson_ne_null (m : MadeHand) : m.toJson ≠ .null := nofun

end PokerHand
