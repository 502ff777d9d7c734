import Mathlib.Data.List.Nodup
import Mathlib.Data.Nat.ModEq
import PokerHand.Hand.Dealing
import PokerHand.Proofs.Outcome

/-!
# The loops of a deal

Cards are dealt one at a time from a cursor into the deck. What a loop deals is the next stretch of
the deck (`Hand.take`): board cards are a stretch each (`dealBoard_eq`), and hole cards are a
stretch of which each seat has its share (`dealHole_eq`). A loop that comes to the end of the deck
names the first missing card.
-/
namespace PokerHand.Hand

/-- Takes the next `n` cards. When the deck ends before that, the first missing card is named. -/
def take (h : Hand) (n : Nat) : Except Fault (List Card × Hand) :=
  if n = 0 ∨ h.dealt + n ≤ h.terms.deck.length then
    .ok ((h.terms.deck.drop h.dealt).take n, { h with dealt := h.dealt + n })
  else
    .error (.tooFewCards (max h.dealt h.terms.deck.length + 1) h.terms.deck.length)

/-- The cards of a round of dealing that fall to the `place`th seat of `count`, when each seat
gets `each` cards and the seat after `dealer` is served first. -/
def share (cards : List Card) (count each dealer place : Nat) : List Card :=
  (List.range each).filterMap fun i => cards[i * count + (place + count - dealer - 1) % count]?

/-- Of cards that are dealt to places in turn, those that the seat at `place` gets. -/
def sharedOut (places : List Nat) (cards : List Card) (place : Nat) : List Card :=
  ((places.zip cards).filter fun e => e.1 = place).map Prod.snd

variable {h : Hand} {count dealer each place : Nat}

theorem take_zero (h : Hand) : h.take 0 = .ok ([], h) := by
  simp [take]

/-- The first of several cards is drawn first. -/
theorem take_succ (h : Hand) (n : Nat) : h.take (n + 1) = do
    let (card, h) ← h.draw
    let (cards, h) ← h.take n
    return (card :: cards, h) := by
  unfold draw
  cases hcard : h.terms.deck[h.dealt]? with
  | none =>
      have hend := List.getElem?_eq_none_iff.1 hcard
      have hno : ¬ (n + 1 = 0 ∨ h.dealt + (n + 1) ≤ h.terms.deck.length) := by omega
      rw [take, if_neg hno, Nat.max_eq_left hend]
      rfl
  | some card =>
      obtain ⟨hlt, hget⟩ := List.getElem?_eq_some_iff.1 hcard
      have hdrop : h.terms.deck.drop h.dealt = card :: h.terms.deck.drop (h.dealt + 1) := by
        rw [List.drop_eq_getElem_cons hlt, hget]
      simp only [take, Outcome.ok_bind]
      by_cases hdeck : n = 0 ∨ h.dealt + 1 + n ≤ h.terms.deck.length
      · have hall : n + 1 = 0 ∨ h.dealt + (n + 1) ≤ h.terms.deck.length := by omega
        rw [if_pos hall, if_pos hdeck, hdrop]
        simp [Nat.add_assoc, Nat.add_comm 1 n]
      · have hnone : ¬ (n + 1 = 0 ∨ h.dealt + (n + 1) ≤ h.terms.deck.length) := by omega
        have hmax : max h.dealt h.terms.deck.length = max (h.dealt + 1) h.terms.deck.length := by
          omega
        rw [if_neg hnone, if_neg hdeck, hmax]
        rfl

theorem take_inv {h' : Hand} {n : Nat} {cards : List Card} (ht : h.take n = .ok (cards, h')) :
    cards.length = n ∧ h' = { h with dealt := h.dealt + n } := by
  unfold take at ht
  split at ht
  · next hdeck =>
    obtain ⟨rfl, rfl⟩ := Prod.mk.inj (Except.ok.inj ht)
    refine ⟨?_, rfl⟩
    rw [List.length_take, List.length_drop]
    omega
  · cases ht

/-- Cards that are taken lie in the deck. -/
theorem fits_of_take {h' : Hand} {n : Nat} {cards : List Card} (ht : h.take n = .ok (cards, h')) :
    n = 0 ∨ h.dealt + n ≤ h.terms.deck.length := by
  unfold take at ht
  split at ht
  · assumption
  · cases ht

/-- Taking cards looks at nothing but the deck and the cursor. -/
theorem take_congr {g : Hand} (hdealt : g.dealt = h.dealt) (hterms : g.terms = h.terms) (n : Nat) :
    g.take n = (fun r => (r.1, { g with dealt := r.2.dealt })) <$> h.take n := by
  unfold take
  rw [hdealt, hterms]
  split <;> rfl

/-! Board cards. -/

/-- A loop that draws card after card puts away the next stretch of the deck. -/
theorem drawEach_eq (put : Card → Hand → Hand)
    (hput : ∀ c d h, put c { h with dealt := d } = { put c h with dealt := d })
    (hterms : ∀ c h, (put c h).terms = h.terms) (n : Nat) (h : Hand) :
    drawEach put n h = (fun r => r.1.foldl (fun h c => put c h) r.2) <$> h.take n := by
  have hdealt : ∀ c h, (put c h).dealt = h.dealt := by
    intro c h
    show (put c { h with dealt := h.dealt }).dealt = h.dealt
    rw [hput]
  induction n generalizing h with
  | zero =>
      rw [take_zero]
      rfl
  | succ n ih =>
      rw [take_succ, drawEach]
      cases h.draw with
      | error e => rfl
      | ok r =>
          obtain ⟨c, h⟩ := r
          simp only [Outcome.ok_bind]
          rw [ih, take_congr (hdealt c h) (hterms c h)]
          cases htake : h.take n with
          | error e => rfl
          | ok r =>
              obtain ⟨cards, h'⟩ := r
              obtain ⟨-, rfl⟩ := take_inv htake
              refine congrArg (fun g => Except.ok (cards.foldl (fun h c => put c h) g)) ?_
              exact (hput c (h.dealt + n) h).symm

theorem drawEach_burn (n : Nat) (h : Hand) :
    drawEach burn n h = (fun r => { r.2 with burned := r.2.burned ++ r.1 }) <$> h.take n := by
  rw [drawEach_eq burn (fun _ _ _ => rfl) fun _ _ => rfl]
  refine congrArg (· <$> h.take n) (funext fun r => ?_)
  obtain ⟨cards, g⟩ := r
  induction cards generalizing g with
  | nil => simp
  | cons c cards ih =>
      refine (ih (burn c g)).trans ?_
      simp [burn]

theorem drawEach_turnUp (n : Nat) (h : Hand) :
    drawEach turnUp n h = (fun r => { r.2 with board := r.2.board ++ r.1 }) <$> h.take n := by
  rw [drawEach_eq turnUp (fun _ _ _ => rfl) fun _ _ => rfl]
  refine congrArg (· <$> h.take n) (funext fun r => ?_)
  obtain ⟨cards, g⟩ := r
  induction cards generalizing g with
  | nil => simp
  | cons c cards ih =>
      refine (ih (turnUp c g)).trans ?_
      simp [turnUp]

/-- Burned and board cards are the next two stretches of the deck. -/
theorem dealBoard_eq (h : Hand) (street : Street) : h.dealBoard street = do
    let (burned, h) ← h.take h.terms.burnCount
    let (board, h) ← h.take street.boardCards
    return { h with burned := h.burned ++ burned, board := h.board ++ board } := by
  rw [dealBoard, drawEach_burn]
  cases htake : h.take h.terms.burnCount with
  | error e => rfl
  | ok r =>
      obtain ⟨burned, g⟩ := r
      show drawEach turnUp street.boardCards { g with burned := g.burned ++ burned } = _
      rw [drawEach_turnUp,
        take_congr (g := { g with burned := g.burned ++ burned }) (h := g) rfl rfl]
      simp only [Outcome.ok_bind]
      cases htake : g.take street.boardCards with
      | error e => rfl
      | ok r =>
          obtain ⟨board, g'⟩ := r
          obtain ⟨-, rfl⟩ := take_inv htake
          rfl

/-- Dealing a street moves on in the deck, puts cards away and turns cards up, and does no more. -/
theorem dealBoard_inv {h' : Hand} {street : Street} (hdeal : h.dealBoard street = .ok h') :
    ∃ burned board, h' = { h with
      dealt := h.dealt + h.terms.burnCount + street.boardCards
      burned := h.burned ++ burned
      board := h.board ++ board } := by
  rw [dealBoard_eq] at hdeal
  obtain ⟨⟨burned, taken⟩, hburn, hdeal⟩ := Outcome.ok_of_bind hdeal
  obtain ⟨-, rfl⟩ := take_inv hburn
  obtain ⟨⟨board, taken⟩, hboard, hdeal⟩ := Outcome.ok_of_bind hdeal
  obtain ⟨-, rfl⟩ := take_inv hboard
  obtain rfl := Except.ok.inj hdeal
  exact ⟨burned, board, rfl⟩

/-! Hole cards. -/

theorem dealerSeat_lt {dealer : Nat} (hdealer : h.dealerSeat = .ok dealer) :
    dealer < h.seats.length := by
  unfold dealerSeat at hdealer
  split at hdealer
  · next hfind =>
    obtain rfl := Except.ok.inj hdealer
    exact (List.findIdx?_eq_some_iff_getElem.1 hfind).1
  · cases hdealer

theorem dealOrder_lt {count dealer place : Nat} (hplace : place ∈ dealOrder count dealer) :
    place < count := by
  obtain ⟨k, hk, rfl⟩ := List.mem_map.1 hplace
  exact Nat.mod_lt _ (Nat.zero_lt_of_lt (List.mem_range.1 hk))

theorem dealAround_append (first rest : List Nat) (h : Hand) :
    dealAround (first ++ rest) h = dealAround first h >>= dealAround rest := by
  induction first generalizing h with
  | nil => rfl
  | cons place first ih =>
      simp only [List.cons_append, dealAround, bind_assoc, ih]

theorem sharedOut_cons (p : Nat) (places : List Nat) (c : Card) (cards : List Card) (place : Nat) :
    sharedOut (p :: places) (c :: cards) place =
      (if p = place then [c] else []) ++ sharedOut places cards place := by
  by_cases h : p = place <;> simp [sharedOut, h]

/-- Dealing to places in turn deals out the next stretch of the deck. -/
theorem dealAround_eq {places : List Nat} (hplaces : ∀ p ∈ places, p < h.seats.length) :
    dealAround places h = (fun r => { r.2 with seats := r.2.seats.mapIdx fun place s =>
      { s with hole := s.hole ++ sharedOut places r.1 place } }) <$> h.take places.length := by
  induction places generalizing h with
  | nil =>
      have hsame : h.seats.mapIdx (fun place s =>
          { s with hole := s.hole ++ sharedOut [] [] place }) = h.seats :=
        List.ext_getElem? fun i => by simp [sharedOut]
      rw [List.length_nil, take_zero]
      exact congrArg (fun seats => Except.ok { h with seats := seats }) hsame.symm
  | cons p places ih =>
      obtain ⟨hp, hrest⟩ := List.forall_mem_cons.1 hplaces
      rw [List.length_cons, take_succ, dealAround]
      have hdraw : ∀ c g, h.draw = .ok (c, g) → g = { h with dealt := h.dealt + 1 } := by
        intro c g hdraw
        unfold draw at hdraw
        split at hdraw
        · exact (Prod.mk.inj (Except.ok.inj hdraw)).2.symm
        · cases hdraw
      cases hcard : h.draw with
      | error e => rfl
      | ok r =>
          obtain ⟨c, g⟩ := r
          obtain rfl := hdraw c g hcard
          let g : Hand := { h with
            dealt := h.dealt + 1
            seats := h.seats.modify p fun s => { s with hole := s.hole ++ [c] } }
          have hcards := take_congr (g := g) (h := { h with dealt := h.dealt + 1 }) rfl rfl
            places.length
          have hloop := ih (h := g) (by simpa [g] using hrest)
          simp only [Outcome.ok_bind, modifySeat, hp, if_true]
          rw [hloop, hcards]
          cases htake : ({ h with dealt := h.dealt + 1 } : Hand).take places.length with
          | error e => rfl
          | ok r =>
              obtain ⟨cards, g⟩ := r
              obtain ⟨-, rfl⟩ := take_inv htake
              refine congrArg (fun seats => Except.ok
                { h with dealt := h.dealt + 1 + places.length, seats := seats }) ?_
              refine List.ext_getElem? fun i => ?_
              simp only [g, List.getElem?_mapIdx, List.getElem?_modify, sharedOut_cons]
              cases h.seats[i]? with
              | none => rfl
              | some s =>
                  by_cases hi : p = i <;> simp [hi]

/-- Round after round goes to the same places again. -/
theorem dealRounds_eq (dealer n : Nat) (h : Hand) :
    dealRounds dealer n h =
      dealAround (List.replicate n (dealOrder h.seats.length dealer)).flatten h := by
  induction n generalizing h with
  | zero => rfl
  | succ n ih =>
      rw [dealRounds, List.replicate_succ, List.flatten_cons, dealAround_append]
      rw [dealAround_eq fun p => dealOrder_lt]
      cases htake : h.take (dealOrder h.seats.length dealer).length with
      | error e => rfl
      | ok r =>
          obtain ⟨cards, g⟩ := r
          obtain ⟨-, rfl⟩ := take_inv htake
          refine (ih _).trans ?_
          simp only [List.length_mapIdx]
          rfl

theorem length_dealOrder (count dealer : Nat) : (dealOrder count dealer).length = count := by
  rw [dealOrder, List.length_map, List.length_range]

/-- Of one round the seat at a place gets the card whose turn is its own. -/
theorem sharedOut_of_nodup {places : List Nat} (hnodup : places.Nodup) {i : Nat}
    (hi : places[i]? = some place) (cards : List Card) :
    sharedOut places cards place = (cards[i]?).toList := by
  induction places generalizing i cards with
  | nil => simp at hi
  | cons p places ih =>
      obtain ⟨hout, hnodup⟩ := List.nodup_cons.1 hnodup
      cases cards with
      | nil => simp [sharedOut]
      | cons c cards =>
          rw [sharedOut_cons]
          cases i with
          | zero =>
              obtain rfl : p = place := by simpa using hi
              have hrest : sharedOut places cards p = [] := by
                rw [sharedOut, List.map_eq_nil_iff, List.filter_eq_nil_iff]
                intro e he hsame
                have hmem := (List.of_mem_zip (a := e.1) (b := e.2) he).1
                exact hout (of_decide_eq_true hsame ▸ hmem)
              simp [hrest]
          | succ i =>
              have hmem : place ∈ places := List.mem_of_getElem? hi
              have hne : p ≠ place := fun he => hout (he ▸ hmem)
              simpa [hne] using ih hnodup hi cards

theorem sharedOut_append {first : List Nat} {dealt : List Card} (rest : List Nat)
    (cards : List Card) (hlength : first.length = dealt.length) (place : Nat) :
    sharedOut (first ++ rest) (dealt ++ cards) place =
      sharedOut first dealt place ++ sharedOut rest cards place := by
  simp only [sharedOut, List.zip_append hlength, List.filter_append, List.map_append]

theorem nodup_dealOrder (count dealer : Nat) : (dealOrder count dealer).Nodup := by
  refine List.Nodup.map_on ?_ List.nodup_range
  intro k hk l hl hsame
  have hk := List.mem_range.1 hk
  have hl := List.mem_range.1 hl
  have hcancel := Nat.ModEq.add_left_cancel' dealer hsame
  have hone : k % count = l % count := Nat.ModEq.add_right_cancel' 1 hcancel
  rwa [Nat.mod_eq_of_lt hk, Nat.mod_eq_of_lt hl] at hone

/-- Every place has its turn in a round. -/
theorem getElem?_dealOrder (hdealer : dealer < count) (hplace : place < count) :
    (dealOrder count dealer)[(place + count - dealer - 1) % count]? = some place := by
  have hlt : (place + count - dealer - 1) % count < count := Nat.mod_lt _ (by omega)
  rw [dealOrder, List.getElem?_map, List.getElem?_range hlt, Option.map_some]
  refine congrArg some ?_
  have hsum : place + count - dealer - 1 + (dealer + 1) = place + count := by omega
  rw [Nat.add_left_comm, Nat.mod_add_mod, hsum, Nat.add_mod_right, Nat.mod_eq_of_lt hplace]

/-- Of all rounds the seat at a place gets its share. -/
theorem sharedOut_rounds (hdealer : dealer < count) (hplace : place < count) {cards : List Card}
    (hlength : cards.length = each * count) :
    sharedOut (List.replicate each (dealOrder count dealer)).flatten cards place =
      share cards count each dealer place := by
  induction each generalizing cards with
  | zero => simp [sharedOut, share]
  | succ each ih =>
      rw [Nat.add_mul, Nat.one_mul] at hlength
      have hfirst : (dealOrder count dealer).length = (cards.take count).length := by
        rw [length_dealOrder, List.length_take]
        omega
      have hrest : (cards.drop count).length = each * count := by
        rw [List.length_drop]
        omega
      have hround := sharedOut_of_nodup (nodup_dealOrder count dealer)
        (getElem?_dealOrder hdealer hplace) (cards.take count)
      have hlt : (place + count - dealer - 1) % count < count := Nat.mod_lt _ (by omega)
      have hlater : ∀ i, (cards.drop count)[i * count + (place + count - dealer - 1) % count]? =
          cards[(i + 1) * count + (place + count - dealer - 1) % count]? := by
        intro i
        rw [List.getElem?_drop]
        congr 1
        rw [Nat.add_mul, Nat.one_mul]
        omega
      conv_lhs => rw [← List.take_append_drop count cards]
      rw [List.replicate_succ, List.flatten_cons, sharedOut_append _ _ hfirst, ih hrest, hround,
        List.getElem?_take_of_lt hlt, share, share, List.range_succ_eq_map, List.filterMap_cons,
        List.filterMap_map]
      simp only [hlater, Nat.zero_mul, Nat.zero_add]
      cases cards[(place + count - dealer - 1) % count]? <;> rfl

/-- Hole cards are the next stretch of the deck, and each seat gets its share of them. -/
theorem dealHole_eq (h : Hand) : h.dealHole = do
    let dealer ← h.dealerSeat
    let (cards, g) ← h.take (h.terms.holeCount * h.seats.length)
    return { g with
      seats := g.seats.mapIdx fun place s =>
        { s with hole := s.hole ++
            share cards h.seats.length h.terms.holeCount dealer place } } := by
  rw [dealHole]
  cases hdealer : h.dealerSeat with
  | error e => rfl
  | ok dealer =>
      have hlt := dealerSeat_lt hdealer
      have hplaces : ∀ p ∈ (List.replicate h.terms.holeCount
          (dealOrder h.seats.length dealer)).flatten, p < h.seats.length := by
        intro p hp
        obtain ⟨order, horder, hp⟩ := List.mem_flatten.1 hp
        exact dealOrder_lt (List.eq_of_mem_replicate horder ▸ hp)
      have hcount : (List.replicate h.terms.holeCount
          (dealOrder h.seats.length dealer)).flatten.length =
            h.terms.holeCount * h.seats.length := by
        simp [List.length_flatten, length_dealOrder]
      simp only [Outcome.ok_bind]
      rw [dealRounds_eq, dealAround_eq hplaces, hcount]
      cases htake : h.take (h.terms.holeCount * h.seats.length) with
      | error e => rfl
      | ok r =>
          obtain ⟨cards, g⟩ := r
          obtain ⟨hlength, rfl⟩ := take_inv htake
          refine congrArg (fun seats => Except.ok
            { h with dealt := h.dealt + h.terms.holeCount * h.seats.length, seats := seats }) ?_
          refine List.ext_getElem? fun i => ?_
          simp only [List.getElem?_mapIdx]
          cases hs : h.seats[i]? with
          | none => rfl
          | some s =>
              have hi := (List.getElem?_eq_some_iff.1 hs).1
              simp only [Option.map_some, sharedOut_rounds hlt hi hlength]

/-- Dealing hole cards moves on in the deck and serves the seats, and does no more. -/
theorem dealHole_inv {h' : Hand} (hdeal : h.dealHole = .ok h') :
    ∃ dealer cards, h.dealerSeat = .ok dealer ∧ h' = { h with
      dealt := h.dealt + h.terms.holeCount * h.seats.length
      seats := h.seats.mapIdx fun place s =>
        { s with hole := s.hole ++
            share cards h.seats.length h.terms.holeCount dealer place } } := by
  rw [dealHole_eq] at hdeal
  obtain ⟨dealer, hdealer, hdeal⟩ := Outcome.ok_of_bind hdeal
  obtain ⟨⟨cards, taken⟩, htake, hdeal⟩ := Outcome.ok_of_bind hdeal
  obtain ⟨-, rfl⟩ := take_inv htake
  obtain rfl := Except.ok.inj hdeal
  exact ⟨dealer, cards, hdealer, rfl⟩

end PokerHand.Hand
