import PokerHand.Proofs.Betting.Levels
import PokerHand.Proofs.Chips.Growth
import PokerHand.Proofs.Chips.Standing

/-!
# Pots are won by somebody and only grow at the end

Whenever the pots are split afresh somebody who has not folded has most in the pot, so every pot can
be won by somebody who has reached it. Between two such moments only seats that have most in the pot
put more into it, so the pots stay as they are but for the last, which may grow, and new ones above
it. `Kept` says both of a hand, and is handed on by every phase and every call (`chronicle_kept`),
as long as the chips of the hand are counted exactly.
-/
namespace PokerHand.Hand

open SidePot (Extends)

section Pots

variable {setup : Setup} {h h' g : Hand} {f : Seat → Seat} {place : Nat} {old : List SidePot}
  {r : Hand × Option Phase}

theorem Spares.grows (hs : Spares h g place f) : h.Grows f where
  number := fun r _ => hs.number r
  folded := fun r _ => hs.folded r
  pot := fun r _ => .inl (hs.pot r)

variable [Counting]

/-- Somebody reaches each layer while somebody who has not folded has most in the pot. -/
theorem contributors_ne_nil (hasc : (h.seats.map Seat.number).Pairwise (· < ·)) (hled : h.Led) :
    ∀ p ∈ h.contributions.pots, p.contributors ≠ [] := by
  intro p hp
  rw [contributors_of_mem_pots hasc hp]
  exact fun hnil => reaching_ne_nil hasc hled hp (List.map_eq_nil_iff.1 hnil)

/-- The pots have only been extended since they were `old`, splitting them afresh would only extend
them more, and each can be won by somebody. -/
structure Kept (old : List SidePot) (h : Hand) : Prop where
  since : Extends old h.pots
  fresh : Extends h.pots h.contributions.pots
  owned : ∀ p ∈ h.pots, p.contributors ≠ []

theorem Kept.congr (hk : h.Kept old) (hsame : h'.standing = h.standing) : h'.Kept old := by
  have hpots : h'.pots = h.pots := congrArg Prod.fst hsame
  have hcontributions := contributions_congr (congrArg Prod.snd hsame)
  refine ⟨?_, ?_, ?_⟩ <;> rw [hpots]
  · exact hk.since
  · rw [hcontributions]
    exact hk.fresh
  · exact hk.owned

/-- A hand without pots has nothing to keep. -/
theorem Kept.of_nil (hk : h.Kept old) (hnil : h.pots = []) (hpots : h'.pots = []) :
    h'.Kept old where
  since := by
    rw [hpots, ← hnil]
    exact hk.since
  fresh := hpots ▸ .nil _
  owned := by simp [hpots]

/-- Splitting the pots afresh keeps them when somebody has taken the lead with what is new. -/
theorem Kept.recount (hk : h.Kept old)
    (hextends : Extends h.contributions.pots g.contributions.pots)
    (hpots : g.pots = g.contributions.pots)
    (hasc : (g.seats.map Seat.number).Pairwise (· < ·)) (hled : g.Led) : g.Kept old where
  since := hpots ▸ hk.since.trans (hk.fresh.trans hextends)
  fresh := hpots ▸ .refl _
  owned := hpots ▸ contributors_ne_nil hasc hled

/-- Nobody has folded before the first betting round, so somebody who has not leads. -/
theorem Before.led {street : Option Street} {dealt : Nat} {P : Seat → Prop}
    (ha : setup.Accepted) (hb : h.Before setup street dealt P) : h.Led := by
  obtain ⟨s, hs, htops⟩ := exists_tops (hb.scene.table.seats_ne_nil ha)
  exact ⟨s, hs, (hb.seats s hs).1, htops⟩

theorem kept_antePaid (ha : setup.Accepted) {street : Option Street} {dealt : Nat}
    {P : Seat → Prop} (hb : h.Before setup street dealt P) (hk : h.Kept old) :
    h.refreshPots.Kept old := by
  have hled := hb.led ha
  exact hk.recount (.refl _) rfl hb.scene.table.numbered.ascending hled

section Counted

variable [setup.Counted]

/-- The wagers of a round go into the pot from seats that have most in it. -/
theorem grows_collectWagers (hr : h.InRound setup) (hw : h.Wagered) :
    h.Grows fun s => { s.collect with allowed := [] } where
  number := fun _ _ => rfl
  folded := fun _ _ hfolded => hfolded
  pot := by
    intro s hs
    have hnonneg := (hr.table.sound s hs).wager_nonneg
    rw [(hr.table.sound s hs).collect_eq]
    by_cases hzero : s.wager = 0
    · exact .inl (by simp [hzero])
    · exact .inr ⟨hw.tops s hs (by omega), by simp only; omega⟩

/-- A move changes nothing in the pot; a seat that folds drops out of what it could win. -/
theorem Kept.spared (hk : h.Kept old) (hs : Spares h g place f) (ht : Table setup h) :
    g.Kept old where
  since := hs.pots ▸ hk.since
  fresh := by
    have hsame : g.seats.map Seat.pot = h.seats.map Seat.pot := by
      rw [hs.seats, List.map_map]
      exact List.map_congr_left fun r _ => hs.pot r
    have hpot : ∀ s ∈ g.seats, 0 ≤ s.pot := by
      rw [hs.seats, List.forall_mem_map]
      exact fun r hr => (hs.pot r).symm ▸ ht.pot_nonneg r hr
    have hextends : Extends h.contributions.pots g.contributions.pots :=
      extends_pots hs.grows hs.seats ht.numbered.ascending ht.pot_nonneg ht.sum_pot_le hpot
        (hsame ▸ ht.sum_pot_le)
    exact hs.pots ▸ hk.fresh.trans hextends
  owned := hs.pots ▸ hk.owned

theorem kept_roundClosed (hr : h.InRound setup) (hw : h.Wagered) (hk : h.Kept old) :
    h.collectWagers.refreshPots.Kept old := by
  have ht := hr.table
  have ht' := table_collectWagers ht
  have hgrows := grows_collectWagers hr hw
  have hextends : Extends h.contributions.pots h.collectWagers.contributions.pots :=
    extends_pots hgrows rfl ht.numbered.ascending ht.pot_nonneg ht.sum_pot_le ht'.pot_nonneg
      ht'.sum_pot_le
  exact hk.recount hextends rfl ht'.numbered.ascending (led_collectWagers hr)

/-- Scoring the hands a last time does not change who leads. -/
theorem Over.scored (ho : h.Over setup) :
    Table setup h.refreshMade.refreshPots ∧ h.refreshMade.refreshPots.Led := by
  obtain ⟨street, hstreet⟩ := ho.closing.onStreet
  have halike : ∀ s : Seat, Seat.Alike s { s with made := h.madeBy s } := fun s =>
    s.alike_update _ _ _ _ _
  exact ⟨hstreet.scene.table.alike rfl rfl halike, ho.led.map rfl fun _ _ => ⟨rfl, rfl⟩⟩

theorem kept_settlement (ho : h.Over setup) (hk : h.Kept old) :
    h.refreshMade.refreshPots.Kept old := by
  obtain ⟨htable, hled⟩ := ho.scored
  have hsame : h.refreshMade.refreshPots.contributions = h.contributions := by
    refine contributions_congr ?_
    show (h.seats.map _).map Contributions.stake = _
    rw [List.map_map]
    rfl
  exact hk.recount (hsame ▸ .refl _) rfl htable.numbered.ascending hled

/-- Every phase keeps the pots. -/
theorem react_kept (ha : setup.Accepted) (he : h.Entering setup)
    (hw : h.phase ∈ Phase.betting → h.Wagered) (hk : h.Kept old) (hr : h.react = .ok r) :
    r.1.Kept old := by
  by_cases hcounting : h.phase ∈ Phase.counting
  · simp only [Phase.counting, List.mem_cons, List.not_mem_nil, or_false] at hcounting
    rw [Entering] at he
    rcases hcounting with hp | hp | hp <;> rw [hp] at he <;> rw [react_eq hp, reaction] at hr
    · obtain rfl := Except.ok.inj hr
      exact kept_antePaid ha he hk
    · obtain rfl := Except.ok.inj hr
      exact kept_roundClosed he.inRound (hw (by simp [hp, Phase.betting])) hk
    · obtain ⟨result, -, hr⟩ := Outcome.ok_of_bind hr
      obtain rfl := Except.ok.inj hr
      exact (kept_settlement he hk).congr rfl
  · exact hk.congr (react_standing hcounting hr)

/-- Before the antes are asked for there is nothing in the pot. -/
theorem pots_eq_nil_of_ante (he : h.Entering setup) (hp : h.phase = .anteRequested)
    (hk : h.Kept old) : h.pots = [] := by
  rw [Entering, hp] at he
  have hempty := pots_eq_nil he.scene.table.numbered.ascending fun s hs => (he.seats s hs).2.2
  exact (hempty ▸ hk.fresh).eq_nil

/-- Every call keeps the pots, and leaves them as they are before the hand enters a phase. -/
theorem launch_kept {call : Call} (hr : h.Resting setup) (hk : h.Kept old)
    (hante : h.phase = .anteRequested → h.pots = []) (hlaunch : h.launch call = .ok r) :
    r.1.Kept old ∧ r.1.pots = h.pots := by
  rcases hr.launch_cases hlaunch with ⟨hg, hserved⟩ | ⟨b, g, hbid, hbidden, rfl⟩ | ⟨phase, rfl⟩
  · refine ⟨?_, hserved.pots_eq hg⟩
    by_cases hp : h.phase = .anteRequested
    · exact hk.of_nil (hante hp) ((hserved.pots_eq hg).trans (hante hp))
    · exact hk.congr (hserved.standing hg hp)
  · obtain ⟨s, hs, -, hf, -, move, value, -, -, rfl⟩ := hr.exists_settledBy hbid hbidden
    obtain ⟨f, hspares⟩ := settledBy_spares h s.number move value
    have hkept := hk.spared hspares hr.table
    have hpassing := standing_passing (h.settledBy s.number move value) b.place
    exact ⟨hkept.congr hpassing, (congrArg Prod.fst hpassing).trans hspares.pots⟩
  · exact ⟨hk, rfl⟩

theorem chronicle_kept (ha : setup.Accepted) (old : List SidePot) :
    Chronicle setup
      (fun _ h => (h.phase ∈ Phase.betting → h.Wagered) ∧ h.Kept old)
      (fun _ h => (h.phase = .roundStarted → h.Wagered) ∧
        h.Kept old ∧ (h.phase = .anteRequested → h.pots = [])) := by
  refine chronicle_wagered.and (fun {_ h r} he hw hk hr => ?_)
    (fun {_ h _ r} hr _ hj hlaunch => ?_) fun _ hj => ⟨hj.1.congr rfl, hj.2⟩
  · have hkept := react_kept ha he hw hk hr
    obtain ⟨g, next⟩ := r
    cases next with
    | some phase => exact hkept.congr rfl
    | none =>
        refine ⟨hkept, fun hp => ?_⟩
        have hante : h.phase = .anteRequested := (react_leads hr).1.symm.trans hp
        have hsame := react_standing (by simp [hante, Phase.counting]) hr
        exact (congrArg Prod.fst hsame).trans (pots_eq_nil_of_ante he hante hk)
  · obtain ⟨hkept, hpots⟩ := launch_kept hr hj.1 hj.2 hlaunch
    have hl := Launched.of_launch hr hlaunch
    obtain ⟨g, next⟩ := r
    cases next with
    | some phase => exact hkept.congr rfl
    | none => exact ⟨hkept, fun hp => hpots.trans (hj.2 ((hl.stays rfl).1.symm.trans hp))⟩

/-- However a hand is played on, its pots are kept. -/
theorem kept_of_create {id : String} {now : Int} (hc : create setup id now = .ok h)
    (calls later : List (Int × Call)) : ((h.play calls).play later).Kept (h.play calls).pots := by
  have hf := fresh_of_create hc
  have ha := hf.accepted
  have hfresh : h.Kept [] := ⟨.nil _, hf.pots ▸ .nil _, by simp [hf.pots]⟩
  have hstarted : h.phase = .roundStarted → h.Wagered := by simp [hf.phase]
  obtain ⟨hw, hk, hante⟩ := (chronicle_kept ha []).play ha hf.resting
    ⟨hstarted, hfresh, fun _ => hf.pots⟩ calls
  exact ((chronicle_kept ha _).play ha (resting_of_create hc calls)
    ⟨hw, ⟨.refl _, hk.fresh, hk.owned⟩, hante⟩ later).2.1

/-! Who leads when the pots are split. -/

/-- Without wagers on the table it is the pot that counts. -/
theorem Led.exists_committed (hled : h.Led) (ht : Table setup h)
    (hzero : ∀ s ∈ h.seats, s.wager = 0) :
    ∃ s ∈ h.seats, s.folded = false ∧ ∀ t ∈ h.seats, t.committed ≤ s.committed := by
  obtain ⟨s, hs, hlive, htops⟩ := hled
  refine ⟨s, hs, hlive, fun t hmem => ?_⟩
  have hpot := htops t hmem
  rw [(ht.sound s hs).committed_eq, (ht.sound t hmem).committed_eq, hzero s hs, hzero t hmem]
  omega

/-- Whenever the pots are split afresh somebody who has not folded has committed most. -/
theorem exists_committed_of_counting (ha : setup.Accepted) (he : h.Entering setup)
    (hp : h.phase ∈ Phase.counting) :
    ∃ s ∈ h.seats, s.folded = false ∧ ∀ t ∈ h.seats, t.committed ≤ s.committed := by
  simp only [Phase.counting, List.mem_cons, List.not_mem_nil, or_false] at hp
  rw [Entering] at he
  rcases hp with hp | hp | hp <;> rw [hp] at he
  · exact (he.led ha).exists_committed he.scene.table fun s hs => (he.seats s hs).2.1
  · have hstaked : h.Staked setup := he.inRound.staked
    have ht := he.inRound.table
    obtain ⟨s, hs, hlive, hmatched, htops⟩ := hstaked.leader
    refine ⟨s, hs, hlive, fun t hmem => ?_⟩
    have hpot := htops t hmem
    have hwager := hstaked.wager_le t hmem
    rw [(ht.sound s hs).committed_eq, (ht.sound t hmem).committed_eq]
    omega
  · obtain ⟨street, hstreet⟩ := he.closing.onStreet
    have hled : h.Led := he.led
    exact hled.exists_committed hstreet.scene.table he.wager_eq_zero

end Counted

end Pots

end PokerHand.Hand
