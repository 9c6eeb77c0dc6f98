/-
  A copy of a list that is kept up to date by messages.

  The owner of the source overwrites some positions and sends each change out as a diff.  A
  diff waits (`pend`) until a forwarder takes it into its hand (`hand`) and passes it on to the
  channel of the copy (`chan`).  Diffs can be lost while they wait; the forwarder can then add a
  snapshot of the source to its hand.

  * `Step`: the moves that lose nothing; `drop` and `resync` are the two others.
  * `Follows`: the messages under way lead the copy to the source.
  * `Settled`: whichever of the messages in front of the channel are still to come, they lead
    the source to itself.  This is what makes a snapshot of the source useful.
  * `Holding`: the same for a snapshot `G` that was taken earlier and is not sent yet, as long as
    the forwarder only passes on messages that the snapshot contains.
  * `Unknown`: there is no copy, and none is under way.
  * `Kept`: the pairs of an invariant that losses keep and one that a resync restores.
-/
import Nexterm.Lib.Overwrite

open Overwrite

/-- A change of the source, or all of it; the stamp counts the changes. -/
inductive Update (α : Type)
  | diff (writes : List (ℕ × α)) (stamp : ℕ)
  | snapshot (contents : List α) (stamp : ℕ)

namespace Update

variable {α : Type}

/-- The number of changes the source had seen. -/
def stamp : Update α → ℕ
  | .diff _ stamp => stamp
  | .snapshot _ stamp => stamp

/-- What an update does to a copy; a diff alone does not make one. -/
def apply (c : Option (List α)) : Update α → Option (List α)
  | .diff writes _ => c.map fun l => overwrite l writes
  | .snapshot contents _ => some contents

/-- The updates, one after the other. -/
def replay (us : List (Update α)) (c : Option (List α)) : Option (List α) := us.foldl apply c

@[simp] theorem replay_nil (c : Option (List α)) : replay [] c = c := rfl

@[simp] theorem replay_cons (u : Update α) (us : List (Update α)) (c : Option (List α)) :
    replay (u :: us) c = replay us (u.apply c) := rfl

theorem replay_append (us us' : List (Update α)) (c : Option (List α)) :
    replay (us ++ us') c = replay us' (replay us c) := List.foldl_append

/-- Diffs only. -/
def Diffs (us : List (Update α)) : Prop := ∀ u ∈ us, ∃ writes stamp, u = .diff writes stamp

/-- The writes of all the diffs. -/
def writes : List (Update α) → List (ℕ × α)
  | [] => []
  | .diff ws _ :: us => ws ++ writes us
  | .snapshot _ _ :: us => writes us

theorem replay_diffs : ∀ {us : List (Update α)} (c : Option (List α)), Diffs us →
    replay us c = c.map fun l => overwrite l (writes us)
  | [], c, _ => by cases c <;> rfl
  | u :: us, c, h => by
    obtain ⟨ws, stamp, rfl⟩ := h u List.mem_cons_self
    rw [replay_cons, replay_diffs _ fun v hv => h v (List.mem_cons_of_mem _ hv)]
    cases c with
    | none => rfl
    | some l => simp only [apply, Option.map_some, writes, overwrite_append]

/-- Once there is a snapshot, it does not matter where the replay starts. -/
theorem diffs_or_const (us : List (Update α)) :
    Diffs us ∨ ∃ v, ∀ c, replay us c = some v := by
  induction us with
  | nil =>
    left
    intro u hu
    cases hu
  | cons u us ih =>
    rcases ih with hd | ⟨v, hv⟩
    · cases u with
      | diff ws stamp =>
        left
        rintro u (_ | ⟨_, hu⟩)
        · exact ⟨ws, stamp, rfl⟩
        · exact hd u hu
      | snapshot contents stamp =>
        right
        refine ⟨overwrite contents (writes us), ?_⟩
        intro c
        rw [replay_cons, replay_diffs _ hd]
        rfl
    · right
      exact ⟨v, fun c => hv _⟩

end Update

open Update

/-- A source, its copy, and the messages under way between them, oldest first. -/
structure Replica (α : Type) where
  source : List α
  /-- How often the source has changed. -/
  stamp : ℕ
  pend : List (Update α)
  hand : List (Update α)
  chan : List (Update α)
  copy : Option (List α)

namespace Replica

variable {α : Type}

/-- The moves that lose nothing; the forwarder passes on only what meets `passed`. -/
inductive Step (passed : Update α → Prop) : Replica α → Replica α → Prop
  | stay (r : Replica α) : Step passed r r
  | store (r : Replica α) (ws : List (ℕ × α)) :
      Step passed r { r with
        source := overwrite r.source ws
        stamp := r.stamp + 1
        pend := r.pend ++ [.diff ws (r.stamp + 1)] }
  | receive {r : Replica α} {u : Update α} {us : List (Update α)} (h : r.pend = u :: us) :
      Step passed r { r with pend := us, hand := r.hand ++ [u] }
  | forward {r : Replica α} {u : Update α} {us : List (Update α)} (h : r.hand = u :: us)
      (hu : passed u) : Step passed r { r with hand := us, chan := r.chan ++ [u] }
  | deliver {r : Replica α} {u : Update α} {us : List (Update α)} (h : r.chan = u :: us) :
      Step passed r { r with chan := us, copy := u.apply r.copy }

theorem Step.mono {passed passed' : Update α → Prop} {r r' : Replica α}
    (hp : ∀ u, passed u → passed' u) (hs : Step passed r r') : Step passed' r r' := by
  cases hs with
  | stay => exact .stay r
  | store ws => exact .store r ws
  | receive h => exact .receive h
  | forward h hu => exact .forward h (hp _ hu)
  | deliver h => exact .deliver h

/-- The oldest waiting message is lost. -/
def drop (r : Replica α) : Replica α := { r with pend := r.pend.tail }

/-- The forwarder takes a snapshot of the source. -/
def resync (r : Replica α) : Replica α :=
  { r with hand := r.hand ++ [.snapshot r.source r.stamp] }

/-- Somebody else sends the copy a snapshot past the forwarder. -/
def inject (r : Replica α) (contents : List α) (stamp : ℕ) : Replica α :=
  { r with chan := r.chan ++ [.snapshot contents stamp] }

variable {passed : Update α → Prop} {r r' : Replica α}

/-! ## What waits is contained in the source -/

/-- What waits are diffs, and the source contains them. -/
structure Contained (r : Replica α) : Prop where
  diffs : Diffs r.pend
  absorbed : Absorbed (writes r.pend) r.source

theorem writes_append (us us' : List (Update α)) :
    writes (us ++ us') = writes us ++ writes us' := by
  induction us with
  | nil => rfl
  | cons u us ih =>
    cases u with
    | diff ws stamp => rw [List.cons_append, writes, ih, writes, List.append_assoc]
    | snapshot contents stamp => rw [List.cons_append, writes, ih, writes]

/-- A later part of what waits leads the source to itself. -/
theorem Contained.suffix (h : Contained r) (us l : List (Update α)) (he : r.pend = us ++ l) :
    replay l (some r.source) = some r.source := by
  have hd : Diffs l := fun u hu => h.diffs u (he ▸ List.mem_append_right us hu)
  have ha : Absorbed (writes us ++ writes l) r.source := by
    rw [← writes_append, ← he]
    exact h.absorbed
  rw [replay_diffs _ hd, Option.map_some]
  exact congrArg some ha.of_append

theorem Contained.tail (h : Contained r) {u : Update α} {us : List (Update α)}
    (he : r.pend = u :: us) : Diffs us ∧ Absorbed (writes us) r.source := by
  have hd : Diffs us := fun v hv => h.diffs v (he ▸ List.mem_cons_of_mem u hv)
  refine ⟨hd, ?_⟩
  have hsuffix := h.suffix [u] us he
  rw [replay_diffs _ hd, Option.map_some] at hsuffix
  exact Option.some.inj hsuffix

theorem Contained.step (h : Contained r) (hs : Step passed r r') : Contained r' := by
  cases hs with
  | stay => exact h
  | store ws =>
    refine ⟨?_, ?_⟩
    · intro u hu
      rcases List.mem_append.1 hu with hu | hu
      · exact h.diffs u hu
      · exact ⟨ws, _, List.mem_singleton.1 hu⟩
    · rw [writes_append]
      simpa only [writes, List.append_nil] using h.absorbed.overwrite ws
  | receive he => exact ⟨(h.tail he).1, (h.tail he).2⟩
  | forward he hu => exact ⟨h.diffs, h.absorbed⟩
  | deliver he => exact ⟨h.diffs, h.absorbed⟩

theorem Contained.drop (h : Contained r) : Contained r.drop := by
  cases hp : r.pend with
  | nil =>
    refine ⟨?_, ?_⟩
    · rw [Replica.drop, hp]
      intro u hu
      cases hu
    · rw [Replica.drop, hp]
      exact rfl
  | cons u us =>
    refine ⟨?_, ?_⟩
    · rw [Replica.drop, hp]
      exact (h.tail hp).1
    · rw [Replica.drop, hp]
      exact (h.tail hp).2

theorem Contained.resync (h : Contained r) : Contained r.resync := ⟨h.diffs, h.absorbed⟩

theorem Contained.inject (h : Contained r) (contents : List α) (stamp : ℕ) :
    Contained (r.inject contents stamp) := ⟨h.diffs, h.absorbed⟩

/-! ## The copy follows the source -/

/-- The messages under way lead the copy to the source. -/
def Follows (r : Replica α) : Prop := replay (r.chan ++ r.hand ++ r.pend) r.copy = some r.source

/-- **Nothing is lost on the way.** -/
theorem Follows.step (h : Follows r) (hs : Step passed r r') : Follows r' := by
  unfold Follows at h ⊢
  cases hs with
  | stay => exact h
  | store ws =>
    show replay (r.chan ++ r.hand ++ (r.pend ++ [.diff ws (r.stamp + 1)])) r.copy = _
    rw [← List.append_assoc, replay_append, h]
    rfl
  | @receive u us he =>
    show replay (r.chan ++ (r.hand ++ [u]) ++ us) r.copy = some r.source
    rw [← h, he]
    simp only [List.append_assoc, List.singleton_append]
  | @forward u us he hu =>
    show replay (r.chan ++ [u] ++ us ++ r.pend) r.copy = some r.source
    rw [← h, he]
    simp only [List.append_assoc, List.cons_append, List.nil_append]
  | @deliver u us he =>
    show replay (us ++ r.hand ++ r.pend) (u.apply r.copy) = some r.source
    rw [← h, he]
    rfl

/-- A resync repairs whatever was lost before it. -/
theorem Contained.follows_resync (h : Contained r) : Follows r.resync := by
  show replay (r.chan ++ (r.hand ++ [.snapshot r.source r.stamp]) ++ r.pend) r.copy = _
  rw [replay_append, ← List.append_assoc, replay_append]
  exact h.suffix [] _ rfl

/-- When nothing is under way, the copy is the source. -/
theorem Follows.copy (h : Follows r) (hpend : r.pend = []) (hhand : r.hand = [])
    (hchan : r.chan = []) : r.copy = some r.source := by
  unfold Follows at h
  rw [hpend, hhand, hchan] at h
  exact h

/-! ## A copy that is not there -/

/-- There is no copy, and no snapshot is on its way. -/
structure Unknown (r : Replica α) : Prop where
  copy : r.copy = none
  chan : Diffs r.chan
  hand : Diffs r.hand

theorem Unknown.step (h : Unknown r) (hc : Contained r) (hs : Step passed r r') : Unknown r' := by
  cases hs with
  | stay => exact h
  | store ws => exact ⟨h.copy, h.chan, h.hand⟩
  | @receive u us he =>
    refine ⟨h.copy, h.chan, ?_⟩
    intro v hv
    rcases List.mem_append.1 hv with hv | hv
    · exact h.hand v hv
    · exact hc.diffs v (he ▸ List.mem_singleton.1 hv ▸ List.mem_cons_self)
  | @forward u us he hu =>
    refine ⟨h.copy, ?_, fun v hv => h.hand v (he ▸ List.mem_cons_of_mem u hv)⟩
    intro v hv
    rcases List.mem_append.1 hv with hv | hv
    · exact h.chan v hv
    · exact h.hand v (he ▸ List.mem_singleton.1 hv ▸ List.mem_cons_self)
  | @deliver u us he =>
    obtain ⟨ws, stamp, rfl⟩ := h.chan u (he ▸ List.mem_cons_self)
    refine ⟨?_, fun v hv => h.chan v (he ▸ List.mem_cons_of_mem _ hv), h.hand⟩
    show r.copy.map _ = none
    rw [h.copy, Option.map_none]

/-! ## Snapshots past the forwarder -/

/-- Whichever of the messages in front of the channel are still to come, they lead the source
    to itself. -/
def Settled (r : Replica α) : Prop :=
  ∀ us l, r.hand ++ r.pend = us ++ l → replay l (some r.source) = some r.source

theorem Settled.step (h : Settled r) (hs : Step passed r r') : Settled r' := by
  cases hs with
  | stay => exact h
  | store ws =>
    intro us l he
    have he' : r.hand ++ (r.pend ++ [.diff ws (r.stamp + 1)]) = us ++ l := he
    show replay l (some (overwrite r.source ws)) = some (overwrite r.source ws)
    rcases List.eq_nil_or_concat l with rfl | ⟨l, u, rfl⟩
    · rfl
    · rw [List.concat_eq_append, ← List.append_assoc, ← List.append_assoc] at he'
      obtain ⟨hpre, hu⟩ := List.append_inj' he' rfl
      obtain rfl := List.singleton_inj.1 hu
      have hold := h us l hpre
      rw [List.concat_eq_append, replay_append]
      rcases diffs_or_const l with hd | ⟨v, hv⟩
      · rw [replay_diffs _ hd] at hold ⊢
        have habs : Absorbed (writes l) r.source := Option.some.inj hold
        have hlater := habs.overwrite ws
        rw [Absorbed, overwrite_append] at hlater
        exact congrArg some hlater
      · rw [hv] at hold ⊢
        obtain rfl := Option.some.inj hold
        rfl
  | @receive u us he =>
    intro us' l he'
    refine h us' l ?_
    have hcat : r.hand ++ [u] ++ us = us' ++ l := he'
    rw [← hcat, he]
    simp only [List.append_assoc, List.singleton_append]
  | @forward u us he hu =>
    intro us' l he'
    refine h (u :: us') l ?_
    have hcat : us ++ r.pend = us' ++ l := he'
    rw [he, List.cons_append, hcat, List.cons_append]
  | deliver he => exact h

theorem Contained.settled_of_hand (h : Contained r) (hhand : r.hand = []) : Settled r := by
  intro us l he
  rw [hhand] at he
  exact h.suffix us l he

/-- Every part of `us ++ u :: us'` after a cut either still has `u` or is a part of `us'`. -/
theorem cut_cases {us us' pre l : List (Update α)} {u : Update α}
    (h : us ++ u :: us' = pre ++ l) :
    (∃ mid, l = mid ++ u :: us') ∨ ∃ mid, u ∈ pre ∧ us' = mid ++ l := by
  rcases List.append_eq_append_iff.1 h with ⟨mid, rfl, hl⟩ | ⟨mid, rfl, hl⟩
  · cases mid with
    | nil => exact .inl ⟨[], by simpa using hl.symm⟩
    | cons v mid =>
      obtain ⟨rfl, hmid⟩ := List.cons.inj hl
      exact .inr ⟨mid, List.mem_append_right us List.mem_cons_self, hmid⟩
  · exact .inl ⟨mid, hl⟩

theorem Contained.settled_resync (h : Contained r) : Settled r.resync := by
  intro us l he
  have he' : r.hand ++ .snapshot r.source r.stamp :: r.pend = us ++ l := by
    rw [← he]
    show _ = r.hand ++ [.snapshot r.source r.stamp] ++ r.pend
    rw [List.append_assoc, List.singleton_append]
  show replay l (some r.source) = some r.source
  rcases cut_cases he' with ⟨mid, rfl⟩ | ⟨mid, -, hl⟩
  · rw [replay_append]
    exact h.suffix [] _ rfl
  · exact h.suffix mid l hl

/-- What the source was when it had changed `n` times, as far as that is still known. -/
structure Since (G : List α) (n : ℕ) (r : Replica α) : Prop where
  le : n ≤ r.stamp
  eq : r.stamp = n → r.source = G

theorem Since.step {G : List α} {n : ℕ} (h : Since G n r) (hs : Step passed r r') :
    Since G n r' := by
  cases hs with
  | stay => exact h
  | store ws =>
    refine ⟨Nat.le_succ_of_le h.le, ?_⟩
    intro heq
    exact absurd (heq ▸ h.le) (Nat.not_succ_le_self _)
  | receive he => exact ⟨h.le, h.eq⟩
  | forward he hu => exact ⟨h.le, h.eq⟩
  | deliver he => exact ⟨h.le, h.eq⟩

/-- The snapshot `G`, taken after `n` changes, contains the update. -/
def InSnapshot (G : List α) (n : ℕ) (u : Update α) : Prop :=
  u.stamp ≤ n ∨ u.apply (some G) = some G

/-- The snapshot `G` is not sent yet.  Whichever messages it contains are passed on before it,
    the others lead it to the source. -/
def Holding (G : List α) (n : ℕ) (r : Replica α) : Prop :=
  ∀ us l, r.hand ++ r.pend = us ++ l → (∀ u ∈ us, InSnapshot G n u) →
    replay l (some G) = some r.source

theorem Settled.holding (h : Settled r) : Holding r.source r.stamp r := fun us l he _ => h us l he

theorem Holding.step {G : List α} {n : ℕ} (h : Holding G n r) (hsince : Since G n r)
    (hs : Step (InSnapshot G n) r r') : Holding G n r' := by
  cases hs with
  | stay => exact h
  | store ws =>
    intro us l he hus
    have he' : r.hand ++ r.pend ++ [.diff ws (r.stamp + 1)] = us ++ l := by
      rw [List.append_assoc]
      exact he
    show replay l (some G) = some (overwrite r.source ws)
    rcases List.eq_nil_or_concat l with rfl | ⟨l, u, rfl⟩
    · -- the new diff itself was passed on, so it changes neither `G` nor the source
      rw [List.append_nil] at he'
      have hprev : some G = some r.source := by
        refine h _ [] (List.append_nil _).symm ?_
        intro u hu
        exact hus u (he' ▸ List.mem_append_left _ hu)
      have hG : r.source = G := (Option.some.inj hprev).symm
      rcases hus _ (he' ▸ List.mem_append_right _ List.mem_cons_self) with hle | hsame
      · exact absurd hsince.le (by rw [Update.stamp] at hle; omega)
      · rw [hG]
        exact hsame.symm
    · rw [List.concat_eq_append, ← List.append_assoc] at he'
      obtain ⟨hpre, hu⟩ := List.append_inj' he' rfl
      obtain rfl := List.singleton_inj.1 hu
      rw [List.concat_eq_append, replay_append, h us l hpre hus]
      rfl
  | @receive u us he =>
    intro us' l he'
    refine h us' l ?_
    have hcat : r.hand ++ [u] ++ us = us' ++ l := he'
    rw [← hcat, he]
    simp only [List.append_assoc, List.singleton_append]
  | @forward u us he hu =>
    intro us' l he' hus'
    have hcat : us ++ r.pend = us' ++ l := he'
    refine h (u :: us') l (by rw [he, List.cons_append, hcat, List.cons_append]) ?_
    rintro v (_ | ⟨_, hv⟩)
    · exact hu
    · exact hus' v hv
  | deliver he => exact h

theorem Contained.holding_resync {G : List α} {n : ℕ} (h : Contained r) (hsince : Since G n r) :
    Holding G n r.resync := by
  intro us l he hus
  have he' : r.hand ++ .snapshot r.source r.stamp :: r.pend = us ++ l := by
    rw [← he]
    show _ = r.hand ++ [.snapshot r.source r.stamp] ++ r.pend
    rw [List.append_assoc, List.singleton_append]
  show replay l (some G) = some r.source
  rcases cut_cases he' with ⟨mid, rfl⟩ | ⟨mid, hmem, hl⟩
  · rw [replay_append]
    exact h.suffix [] _ rfl
  · -- the snapshot of the forwarder was passed on, so it is the one that is held
    have hG : r.source = G := by
      rcases hus _ hmem with hle | hsame
      · exact hsince.eq (Nat.le_antisymm hle hsince.le)
      · exact Option.some.inj hsame
    rw [← hG]
    exact h.suffix mid l hl

/-- **Sending the snapshot makes the copy follow.** -/
theorem Holding.follows_inject {G : List α} {n : ℕ} (h : Holding G n r) :
    Follows (r.inject G n) := by
  show replay (r.chan ++ [.snapshot G n] ++ r.hand ++ r.pend) r.copy = some r.source
  have hrest : replay (r.hand ++ r.pend) (some G) = some r.source := by
    refine h [] _ rfl ?_
    intro u hu
    cases hu
  rw [List.append_assoc (r.chan ++ _), replay_append, replay_append r.chan]
  exact hrest

/-! ## Losses and resyncs -/

/-- `I` survives everything; `K` survives what loses nothing, and a resync restores it. -/
structure Kept (passed : Update α → Prop) (I K : Replica α → Prop) : Prop where
  inv_step : ∀ {r r'}, I r → Step passed r r' → I r'
  inv_drop : ∀ {r}, I r → I r.drop
  inv_resync : ∀ {r}, I r → I r.resync
  step : ∀ {r r'}, I r → K r → Step passed r r' → K r'
  resync : ∀ {r}, I r → K r.resync

theorem kept_follows (passed : Update α → Prop) : Kept passed Contained Follows where
  inv_step := Contained.step
  inv_drop := Contained.drop
  inv_resync := Contained.resync
  step _ := Follows.step
  resync := Contained.follows_resync

theorem kept_followsOrUnknown (passed : Update α → Prop) :
    Kept passed Contained fun r => Follows r ∨ Unknown r where
  inv_step := Contained.step
  inv_drop := Contained.drop
  inv_resync := Contained.resync
  step hc h hs := h.imp (·.step hs) (·.step hc hs)
  resync h := .inl h.follows_resync

theorem kept_settled (passed : Update α → Prop) : Kept passed Contained Settled where
  inv_step := Contained.step
  inv_drop := Contained.drop
  inv_resync := Contained.resync
  step _ := Settled.step
  resync := Contained.settled_resync

theorem kept_holding (G : List α) (n : ℕ) :
    Kept (InSnapshot G n) (fun r => Contained r ∧ Since G n r) (Holding G n) where
  inv_step h hs := ⟨h.1.step hs, h.2.step hs⟩
  inv_drop h := ⟨h.1.drop, h.2.le, h.2.eq⟩
  inv_resync h := ⟨h.1.resync, h.2.le, h.2.eq⟩
  step h hK hs := hK.step h.2 hs
  resync h := h.1.holding_resync h.2

end Replica
