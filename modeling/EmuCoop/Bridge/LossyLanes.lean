import EmuCoop.Lib.Reliance
import EmuCoop.Bridge.CutLink

/-!
# Two lanes and a connection that loses frames

Two parties, each seen as the lane of a `high` byte, and the frames on their way between them.
What kind of machine a party is does not matter here: whatever it does is a sequence of
`Lane.Moves`.

What a party has announced, it does not announce again.  That is harmless only as long as the
announcement arrives: the two rely on each other (`EmuCoop.Lib.Reliance`).  An announcement is
certain to arrive while it waits in the resync queue, on the wire or in the partner's sleep queue.
A party that has lost one can be relied on again when it has forgotten what it had announced.

## Main results

- `LossyLanes.Inv.send`, `LossyLanes.Inv.receive`, `LossyLanes.Inv.lose`, `LossyLanes.Inv.forget` :
  what happens to a frame keeps the invariant.
- `LossyLanes.Inv.converged` : when everything has arrived, both bytes are the highest value ever
  contributed.
-/

namespace EmuCoop.Bridge

open EmuCoop.Lib
open Function (update)

variable {addr : Addr} {x : Side}

/-! ## Two lanes -/

structure Lanes where
  lane : Side → Lane
  /-- The values on their way to a side, but for the stale ones. -/
  wire : Side → List ℤ
  /-- Nothing of what a side has announced is lost. -/
  whole : Side → Bool

namespace Lanes

/-- The two bytes, as values that rely on each other. -/
def reliance (total : ℤ) (s : Lanes) : Reliance ℤ where
  val x := byteVal (s.lane x).val
  relies x := if s.whole x then (s.lane x).cache else none
  coming x v := v ∈ (s.lane x.other).queued ∨ v ∈ s.wire x ∨ v ∈ (s.lane x).parked
  total := total

variable {s : Lanes} {total : ℤ}

/-- A side announces some of what it has, at once or later.  What it caches anew is announced, or is
zero. -/
theorem sound_send (h : (s.reliance total).Sound) {l : Lane} {sent : List ℤ}
    (hval : l.val = (s.lane x).val) (hparked : l.parked = (s.lane x).parked)
    (hkept : ∀ v ∈ (s.lane x).queued, v ∈ sent ∨ v ∈ l.queued)
    (hnew : ∀ v, v ∈ sent ∨ v ∈ l.queued → v ∈ (s.lane x).queued ∨ v = byteVal l.val)
    (hcache : ∀ k, l.cache = some k → (s.lane x).cache = some k ∨
      k ≤ byteVal l.val ∧ (k = 0 ∨ ∃ v, (v ∈ sent ∨ v ∈ l.queued) ∧ k ≤ v)) :
    (({ s with
      lane := update s.lane x l
      wire := update s.wire x.other (s.wire x.other ++ sent) } : Lanes).reliance total).Sound := by
  have hsame : ∀ y, byteVal (update s.lane x l y).val = byteVal (s.lane y).val := by
    refine Side.forall_of_other x ?_ ?_
    · simp [hval]
    · simp
  -- nothing that was coming is lost
  have hstill : ∀ y v, (s.reliance total).coming y v →
      v ∈ (update s.lane x l y.other).queued ∨
        v ∈ update s.wire x.other (s.wire x.other ++ sent) y ∨
        v ∈ (update s.lane x l y).parked := by
    refine Side.forall_of_other x ?_ ?_
    -- what comes to the side itself, and what comes to the other one
    · intro v hv
      simpa [hparked, reliance] using hv
    · rintro v (hv | hv | hv)
      · rcases hkept v (by simpa using hv) with hsent | hqueued
        · exact .inr (.inl (by simp [hsent]))
        · exact .inl (by simpa using hqueued)
      · exact .inr (.inl (by simp [hv]))
      · exact .inr (.inr (by simpa using hv))
  -- the values stay, so it is enough to look at what each side relies on and at what is coming
  refine h.settle (funext hsame) rfl ?_ ?_
  · refine Side.forall_of_other x ?_ ?_
    · intro k hk
      simp only [reliance, Function.update_self] at hk
      split_ifs at hk with hwhole
      -- the entry was there, or what it stands for is announced
      rcases hcache k hk with hold | ⟨hle, hannounced⟩
      · have hrelied : (s.reliance total).relies x = some k := by simp [reliance, hwhole, hold]
        exact ⟨h.relies_le x k hrelied,
          (h.within x k hrelied).mono (hsame x.other).ge fun v hv => .inl (hstill x.other v hv)⟩
      · refine ⟨by rw [hval] at hle; exact hle, ?_⟩
        rcases hannounced with hzero | ⟨v, hsent | hqueued, hkv⟩
        · refine .inl ?_
          rw [hzero]
          exact byteVal_nonneg _
        · exact .inr ⟨v, .inr (.inl (by simp [hsent])), hkv⟩
        · exact .inr ⟨v, .inl (by simpa using hqueued), hkv⟩
    · intro k hk
      have hrelied : (s.reliance total).relies x.other = some k := by simpa [reliance] using hk
      exact ⟨h.relies_le x.other k hrelied,
        (h.within x.other k hrelied).mono (hsame x.other.other).ge
          fun v hv => .inl (hstill x.other.other v hv)⟩
  · refine Side.forall_of_other x ?_ ?_
    · intro v hv
      exact h.coming_le x v (by simpa [reliance, hparked] using hv)
    · intro v hv
      have hcases : (v ∈ sent ∨ v ∈ l.queued) ∨ (s.reliance total).coming x.other v := by
        simp only [reliance, Side.other_other, Function.update_self, List.mem_append] at hv ⊢
        rcases hv with hv | (hv | hv) | hv
        · exact .inl (.inr hv)
        · exact .inr (.inr (.inl hv))
        · exact .inl (.inl hv)
        · exact .inr (.inr (.inr (by simpa using hv)))
      rcases hcases with hsent | hold
      · rcases hnew v hsent with hqueued | rfl
        · exact h.coming_le x.other v (.inl (by simpa using hqueued))
        · simp [reliance, hval]
      · exact h.coming_le x.other v hold

/-- A side takes a value that the other one has.  It may have come over the wire, or from the sleep
queue. -/
theorem sound_taking (h : (s.reliance total).Sound) {b : BitVec 8}
    (hb : byteVal b ≤ byteVal (s.lane x.other).val) (parked wire : List ℤ)
    (hparked : ∀ v, v ∈ parked → v ∈ (s.lane x).parked)
    (htaken : ∀ v ∈ (s.lane x).parked, v ∈ parked ∨ v = byteVal b)
    (hwire : ∀ v, v ∈ wire → v ∈ s.wire x) (hreceived : ∀ v ∈ s.wire x, v ∈ wire ∨ v = byteVal b) :
    (({ s with
        lane := update s.lane x ({ s.lane x with parked := parked }.taking b)
        wire := update s.wire x wire } : Lanes).reliance total).Sound := by
  -- taking a value makes the byte the greater of the two
  obtain ⟨hval, hqueued, hparkedEq⟩ : byteVal ({ s.lane x with parked := parked }.taking b).val
        = byteVal (s.lane x).val ⊔ byteVal b ∧
      ({ s.lane x with parked := parked }.taking b).queued = (s.lane x).queued ∧
      ({ s.lane x with parked := parked }.taking b).parked = parked := by
    unfold Lane.taking
    split_ifs with hlt
    · exact ⟨(sup_eq_right.mpr (byteVal_lt_byteVal.mpr hlt).le).symm, rfl, rfl⟩
    · refine ⟨(sup_eq_left.mpr ?_).symm, rfl, rfl⟩
      exact byteVal_le_byteVal.mpr (BitVec.not_lt.mp hlt)
  -- in the relied model this is `take`: the values, the caches, and what comes before and after
  refine h.take (x := x) (v := byteVal b) hb ?_ rfl ?_ ?_ ?_ ?_
  · funext y
    revert y
    refine Side.forall_of_other x ?_ ?_
    · simpa [reliance] using hval
    · simp [reliance]
  · refine Side.forall_of_other x ?_ ?_
    · intro k hk
      simp only [reliance, Function.update_self] at hk
      split_ifs at hk with hwhole
      unfold Lane.taking at hk
      -- the cache becomes the value that was taken, or stays
      split_ifs at hk with hlt
      · exact .inr ⟨rfl, (Option.some.inj hk).ge⟩
      · exact .inl (by simpa [reliance, hwhole] using hk)
    · intro k hk
      exact .inl (by simpa [reliance] using hk)
  · refine Side.forall_of_other x ?_ ?_
    · rintro w (hw | hw | hw)
      · exact .inl (by simpa using hw)
      · exact .inr (.inl (hwire w (by simpa using hw)))
      · exact .inr (.inr (hparked w (by simpa [hparkedEq] using hw)))
    · intro w hw
      simpa [reliance, hqueued] using hw
  · rintro w (hw | hw | hw)
    · exact .inl (.inl (by simpa using hw))
    · rcases hreceived w hw with hstill | rfl
      · exact .inl (.inr (.inl (by simpa using hstill)))
      · exact .inr le_sup_right
    · rcases htaken w hw with hstill | rfl
      · exact .inl (.inr (.inr (by simpa [hparkedEq] using hstill)))
      · exact .inr le_sup_right
  · intro w hw
    simpa [reliance, hqueued] using hw

/-- The values in a sleep queue change places. -/
theorem sound_waiting (h : (s.reliance total).Sound) {parked : List ℤ}
    (hsame : ∀ v, v ∈ parked ↔ v ∈ (s.lane x).parked) :
    (({ s with lane := update s.lane x { s.lane x with parked := parked } } : Lanes).reliance
      total).Sound := by
  have heq : ({ s with lane := update s.lane x { s.lane x with parked := parked } } :
      Lanes).reliance total = s.reliance total := by
    simp only [reliance, Reliance.mk.injEq, and_true]
    refine ⟨funext ?_, funext ?_, funext ?_⟩
    · exact Side.forall_of_other x (by simp) (by simp)
    · exact Side.forall_of_other x (by simp) (by simp)
    · exact Side.forall_of_other x (by simp [hsame]) (by simp)
  rw [heq]
  exact h

/-- What an engine does on the lane. -/
theorem sound_moves {l : Lane} {sent : List ℤ} (hmoves : Lane.Moves (s.lane x) sent l)
    (h : (s.reliance total).Sound) :
    (({ s with
      lane := update s.lane x l
      wire := update s.wire x.other (s.wire x.other ++ sent) } : Lanes).reliance total).Sound := by
  generalize hl : s.lane x = l₀ at hmoves
  -- on the moves of the lane; each is one of the two kinds above
  induction hmoves generalizing s with
  | rest l => subst hl; simpa using h
  -- a value goes from the front of the sleep queue to its end
  | @wait l v more hparked =>
    subst hl
    have hsame : ∀ w, w ∈ more ++ [v] ↔ w ∈ (s.lane x).parked := by
      intro w
      simp [hparked, or_comm]
    simpa using sound_waiting h hsame
  -- it is taken, and is no greater than the partner's byte
  | @take l b more hparked =>
    subst hl
    have hb : byteVal b ≤ byteVal (s.lane x.other).val :=
      h.coming_le x _ (.inr (.inr (by simp [hparked])))
    have htaken := sound_taking h hb more (s.wire x)
      (fun v hv => by simp [hparked, hv]) (fun v hv => by simpa [hparked, or_comm] using hv)
      (fun v hv => hv) (fun v hv => .inl hv)
    simpa using htaken
  -- the front of the resync queue goes out
  | @chunk l sent more hqueued =>
    subst hl
    refine sound_send h rfl rfl (fun v hv => ?_) (fun v hv => .inl ?_) fun k hk => .inl hk
    · simpa [hqueued] using hv
    · simpa [hqueued] using hv
  -- a broadcast: some of it goes out, the rest is queued
  | @fill l k news sent more hnews hcache hsent =>
    subst hl
    refine sound_send h rfl rfl (fun v hv => ?_) (fun v hv => ?_) fun k' hk => ?_
    · exact List.mem_append.mp ((hsent v).mpr (List.mem_append_left _ hv))
    · rcases List.mem_append.mp ((hsent v).mp (List.mem_append.mpr hv)) with hold | hnew
      · exact .inl hold
      · exact .inr (hnews v hnew)
    · obtain rfl : k = k' := Option.some.inj hk
      refine hcache.imp_right fun ⟨hle, hannounced⟩ => ⟨hle, hannounced.imp_right fun hnew => ?_⟩
      exact ⟨_, List.mem_append.mp ((hsent _).mpr (List.mem_append_right _ hnew)), hle⟩
  -- a poll announces the byte
  | @announce l k hcache hlt =>
    subst hl
    refine sound_send h rfl rfl (fun v hv => .inr hv) (fun v hv => ?_) fun k hk => ?_
    · rcases hv with hv | hv
      · exact .inr (List.mem_singleton.mp hv)
      · exact .inl hv
    · obtain rfl : byteVal (s.lane x).val = k := Option.some.inj hk
      exact .inr ⟨le_rfl, .inr ⟨_, .inl List.mem_cons_self, le_rfl⟩⟩
  | trans hmoves hmoves' ih ih' =>
    have hfirst := ih h hl
    have hsecond := ih' hfirst (by simp)
    simpa [List.append_assoc] using hsecond

/-- A value is parked. -/
theorem sound_parking (h : (s.reliance total).Sound) {w : ℤ} {wire : List ℤ}
    (hw : w ≤ byteVal (s.lane x.other).val) (hwire : ∀ v, v ∈ wire → v ∈ s.wire x)
    (hreceived : ∀ v ∈ s.wire x, v ∈ wire ∨ v = w) :
    (({ s with
        lane := update s.lane x { s.lane x with parked := (s.lane x).parked ++ [w] }
        wire := update s.wire x wire } : Lanes).reliance total).Sound := by
  have hsame : ∀ y, byteVal (update s.lane x
      { s.lane x with parked := (s.lane x).parked ++ [w] } y).val = byteVal (s.lane y).val := by
    refine Side.forall_of_other x ?_ ?_ <;> simp
  have hrelies : ∀ y, (({ s with
        lane := update s.lane x { s.lane x with parked := (s.lane x).parked ++ [w] }
        wire := update s.wire x wire } : Lanes).reliance total).relies y
      = (s.reliance total).relies y := by
    refine Side.forall_of_other x ?_ ?_ <;> simp [reliance]
  -- the value was on the wire and is in the sleep queue: it is still coming
  refine h.settle (funext hsame) rfl ?_ ?_
  · intro y k hk
    rw [hrelies] at hk
    refine ⟨h.relies_le y k hk, (h.within y k hk).mono (hsame y.other).ge ?_⟩
    intro v hv
    refine .inl ?_
    revert v
    refine Side.forall_of_other (P := fun z => ∀ v, (s.reliance total).coming z v → _) x ?_ ?_
      y.other
    · rintro v (hv | hv | hv)
      · exact .inl (by simpa using hv)
      · rcases hreceived v hv with hstill | rfl
        · exact .inr (.inl (by simpa using hstill))
        · exact .inr (.inr (by simp))
      · exact .inr (.inr (by simp [hv]))
    · intro v hv
      simpa [reliance] using hv
  · refine Side.forall_of_other x ?_ ?_
    · rintro v (hv | hv | hv)
      · exact h.coming_le x v (.inl (by simpa using hv))
      · exact h.coming_le x v (.inr (.inl (hwire v (by simpa using hv))))
      · simp only [Function.update_self, List.mem_append, List.mem_singleton] at hv
        rcases hv with hv | rfl
        · exact h.coming_le x v (.inr (.inr hv))
        · exact hw
    · intro v hv
      exact h.coming_le x.other v (by simpa [reliance] using hv)

/-- Values are lost.  Their sender is not relied on then. -/
theorem sound_losing (h : (s.reliance total).Sound) (wire : List ℤ) (whole : Bool)
    (hwire : ∀ v, v ∈ wire → v ∈ s.wire x)
    (hlost : whole = true → s.whole x.other = true ∧ ∀ v ∈ s.wire x, v ∈ wire) :
    (({ s with
        wire := update s.wire x wire
        whole := update s.whole x.other whole } : Lanes).reliance total).Sound := by
  -- nothing new is coming
  have hfewer : ∀ y v, (({ s with
        wire := update s.wire x wire
        whole := update s.whole x.other whole } : Lanes).reliance total).coming y v →
      (s.reliance total).coming y v := by
    refine Side.forall_of_other x ?_ ?_
    · rintro v (hv | hv | hv)
      · exact .inl hv
      · exact .inr (.inl (hwire v (by simpa using hv)))
      · exact .inr (.inr hv)
    · intro v hv
      simpa [reliance] using hv
  refine h.settle rfl rfl ?_ fun y v hv => h.coming_le y v (hfewer y v hv)
  refine Side.forall_of_other x ?_ ?_
  · intro k hk
    have hrelied : (s.reliance total).relies x = some k := by simpa [reliance] using hk
    refine ⟨h.relies_le x k hrelied, (h.within x k hrelied).mono le_rfl fun v hv => .inl ?_⟩
    simpa [reliance] using hv
  · intro k hk
    simp only [reliance, Function.update_self] at hk
    -- the sender is relied on only if nothing of its values is lost
    split_ifs at hk with hwhole
    obtain ⟨hbefore, hall⟩ := hlost hwhole
    have hrelied : (s.reliance total).relies x.other = some k := by simp [reliance, hbefore, hk]
    refine ⟨h.relies_le x.other k hrelied,
      (h.within x.other k hrelied).mono le_rfl fun v hv => .inl ?_⟩
    rw [Side.other_other] at hv ⊢
    rcases hv with hv | hv | hv
    · exact .inl hv
    · exact .inr (.inl (by simpa using hall v hv))
    · exact .inr (.inr hv)

/-- A side forgets what it has announced; what was on its way is stale. -/
theorem sound_forget (h : (s.reliance total).Sound) :
    (({ lane := update s.lane x { s.lane x with cache := none, queued := [] }
        wire := update s.wire x.other []
        whole := update s.whole x true } : Lanes).reliance total).Sound := by
  have hsame : ∀ y, byteVal (update s.lane x { s.lane x with cache := none, queued := [] } y).val
      = byteVal (s.lane y).val := by
    refine Side.forall_of_other x ?_ ?_ <;> simp
  refine h.settle (funext hsame) rfl ?_ ?_
  · refine Side.forall_of_other x ?_ ?_
    · intro k hk
      simp [reliance] at hk
    · intro k hk
      have hrelied : (s.reliance total).relies x.other = some k := by simpa [reliance] using hk
      refine ⟨h.relies_le x.other k hrelied,
        (h.within x.other k hrelied).mono (hsame _).ge fun v hv => .inl ?_⟩
      simpa [reliance] using hv
  · refine Side.forall_of_other x ?_ ?_
    · intro v hv
      exact h.coming_le x v (by simpa [reliance] using hv)
    · intro v hv
      have hparked : v ∈ (s.lane x.other).parked := by simpa [reliance] using hv
      exact h.coming_le x.other v (.inr (.inr hparked))

/-- The game of a side raises the byte. -/
theorem sound_raise (h : (s.reliance total).Sound) {b : BitVec 8}
    (hle : byteVal (s.lane x).val ≤ byteVal b) :
    (({ s with lane := update s.lane x { s.lane x with val := b } } : Lanes).reliance
      (total ⊔ byteVal b)).Sound := by
  have hraised := h.raise x (byteVal b)
  have heq : ({ s with lane := update s.lane x { s.lane x with val := b } } : Lanes).reliance
      (total ⊔ byteVal b) = { s.reliance total with
        val := update (s.reliance total).val x ((s.reliance total).val x ⊔ byteVal b)
        total := total ⊔ byteVal b } := by
    simp only [reliance, Reliance.mk.injEq, and_true]
    refine ⟨funext ?_, funext ?_, funext ?_⟩
    · exact Side.forall_of_other x (by simp [sup_eq_right.mpr hle]) (by simp)
    · exact Side.forall_of_other x (by simp) (by simp)
    · exact Side.forall_of_other x (by simp) (by simp)
  rw [heq]
  exact hraised

end Lanes

/-! ## Lanes and frames -/

/-- What becomes of a frame on the lane of the side that receives it. -/
inductive Lane.Receives (addr : Addr) (t : Body) (l : Lane) : Lane → Prop
  /-- It is about something else. -/
  | other (hnone : t.valueFor addr = none) : Receives addr t l l
  /-- Its value waits for the game to run. -/
  | park {v : ℤ} (hv : t.valueFor addr = some v) :
      Receives addr t l { l with parked := l.parked ++ [v] }
  /-- Its value is taken. -/
  | take {b : BitVec 8} (hb : t.valueFor addr = some (byteVal b)) : Receives addr t l (l.taking b)

/-- The byte only rises. -/
theorem Lane.Receives.val_le {t : Body} {l l' : Lane} (h : l.Receives addr t l') :
    l.val ≤ l'.val := by
  cases h with
  | other | park => exact BitVec.le_refl _
  | take =>
    unfold Lane.taking
    split_ifs with hlt
    · exact BitVec.le_of_lt hlt
    · exact BitVec.le_refl _

/-- Two lanes and what is on its way between them. -/
structure LossyLanes where
  lane : Side → Lane
  /-- The data frames on their way to a side, the oldest first. -/
  inbox : Side → List InFlight
  /-- What a side has announced and was lost, since it last forgot what it had announced. -/
  lost : Side → List Body

/-- A body that a bridge or a driver sends: a greeting, or an update with a value that the other
side can take. -/
structure Mergeable (addr : Addr) (P : ℤ → Prop) (t : Body) : Prop where
  op : t.op = none ∨ t.op = some "hello"
  fits : ∀ v, t.valueFor addr = some v → t.op = none ∧ P v

namespace LossyLanes

/-- The values of frames on their way, but for the stale ones. -/
def values (addr : Addr) (frames : List InFlight) : List ℤ :=
  frames.filterMap fun f => if f.stale then none else f.body.valueFor addr

/-- The two lanes with the values on the wire. -/
def lanes (addr : Addr) (p : LossyLanes) : Lanes where
  lane := p.lane
  wire x := values addr (p.inbox x)
  whole x := (p.lost x).all fun t => (t.valueFor addr).isNone

/-- The invariant: a value on its way is one that its sender has. -/
structure Inv (addr : Addr) (P : ℤ → Prop) (total : ℤ) (p : LossyLanes) : Prop where
  sendable : ∀ x, ∀ f ∈ p.inbox x, Mergeable addr P f.body
  le : ∀ x, ∀ f ∈ p.inbox x, ∀ v, f.body.valueFor addr = some v → v ≤ byteVal (p.lane x.other).val
  sound : ((p.lanes addr).reliance total).Sound

variable {P : ℤ → Prop} {total : ℤ} {p p' : LossyLanes}

theorem mem_values {frames : List InFlight} {v : ℤ} :
    v ∈ values addr frames ↔ ∃ f ∈ frames, f.stale = false ∧ f.body.valueFor addr = some v := by
  simp [values]

/-- The lanes, after a step that changes one lane, one inbox, and what one side has lost. -/
theorem lanes_update (addr : Addr) {l : Lane} {y z : Side} {frames : List InFlight}
    {bodies : List Body} (hlane : p'.lane = update p.lane x l)
    (hinbox : p'.inbox = update p.inbox z frames) (hlost : p'.lost = update p.lost y bodies) :
    p'.lanes addr =
      { lane := update (p.lanes addr).lane x l
        wire := update (p.lanes addr).wire z (values addr frames)
        whole := update (p.lanes addr).whole y
          (bodies.all fun t => (t.valueFor addr).isNone) } := by
  simp only [lanes, hlane, hinbox, hlost, Lanes.mk.injEq, true_and]
  exact ⟨Side.map_update _ _ _ _,
    Side.map_update (fun l : List Body => l.all fun t => (t.valueFor addr).isNone) _ _ _⟩

/-- What a side does is what its lane does: it sends bodies, some of which go out, and the others
are lost. -/
theorem Inv.send (h : Inv addr P total p) {l : Lane} {wired rest : List Body}
    (hmoves : Lane.Moves (p.lane x) ((wired ++ rest).filterMap (Body.valueFor addr)) l)
    (hsendable : ∀ t ∈ wired, Mergeable addr P t) :
    Inv addr P total
      { lane := update p.lane x l
        inbox := update p.inbox x.other
          (p.inbox x.other ++ wired.map fun body => { body := body })
        lost := update p.lost x (p.lost x ++ rest) } := by
  rw [List.filterMap_append] at hmoves
  -- everything said is on its way, and then what did not go out is lost
  have hsent := Lanes.sound_moves (s := p.lanes addr) (x := x) hmoves h.sound
  have hle : byteVal (p.lane x).val ≤ byteVal l.val := byteVal_le_byteVal.mpr hmoves.val_le
  have hwire : values addr (p.inbox x.other ++ wired.map fun body => { body := body })
      = (p.lanes addr).wire x.other ++ wired.filterMap (Body.valueFor addr) := by
    simp [values, lanes, List.filterMap_append, List.filterMap_map]
  -- what is on its way can be merged, is no greater than the sender's byte, and the lanes stay
  -- sound
  refine ⟨?_, ?_, ?_⟩
  · refine Side.forall_of_other x ?_ ?_
    · simpa using h.sendable x
    · intro f hf
      simp only [Function.update_self, List.mem_append] at hf
      rcases hf with hf | hf
      · exact h.sendable x.other f hf
      · obtain ⟨body, hbody, rfl⟩ := List.mem_map.mp hf
        exact hsendable body hbody
  · refine Side.forall_of_other x ?_ ?_
    · simpa using h.le x
    · intro f hf v hv
      rw [Side.other_other]
      simp only [Function.update_self, List.mem_append] at hf ⊢
      rcases hf with hf | hf
      · have hold := h.le x.other f hf v hv
        rw [Side.other_other] at hold
        exact hold.trans hle
      · obtain ⟨body, hbody, rfl⟩ := List.mem_map.mp hf
        have hmem : v ∈ wired.filterMap (Body.valueFor addr) :=
          List.mem_filterMap.mpr ⟨body, hbody, hv⟩
        have hcoming := hsent.coming_le x.other v (.inr (.inl (by simp [hmem])))
        simpa [Lanes.reliance] using hcoming
  · rw [lanes_update addr rfl rfl rfl, hwire]
    have hlosing := Lanes.sound_losing hsent (x := x.other)
      ((p.lanes addr).wire x.other ++ wired.filterMap (Body.valueFor addr))
      ((p.lost x ++ rest).all fun t => (t.valueFor addr).isNone) ?_ ?_
    · simpa using hlosing
    · intro v hv
      simp only [Function.update_self, List.mem_append] at hv ⊢
      tauto
    -- if nothing about the address is lost, then nothing was left out
    · intro hwhole
      rw [List.all_append, Bool.and_eq_true] at hwhole
      have hnone : rest.filterMap (Body.valueFor addr) = [] := by
        rw [List.filterMap_eq_nil_iff]
        simpa using hwhole.2
      rw [Side.other_other]
      exact ⟨hwhole.1, fun v hv => by simpa [hnone] using hv⟩

/-- A change of one lane at which its byte rises. -/
theorem le_update (h : Inv addr P total p) {l : Lane} (hle : (p.lane x).val ≤ l.val) (y : Side) :
    ∀ f ∈ p.inbox y, ∀ v, f.body.valueFor addr = some v →
      v ≤ byteVal (update p.lane x l y.other).val := by
  intro f hf v hv
  refine (h.le y f hf v hv).trans ?_
  by_cases hy : y.other = x
  · subst hy
    simpa using byteVal_le_byteVal.mpr hle
  · simp [hy]

/-- The game of a side raises the byte. -/
theorem Inv.raise (h : Inv addr P total p) {b : BitVec 8} (hle : (p.lane x).val ≤ b) :
    Inv addr P (total ⊔ byteVal b)
      { p with lane := update p.lane x { p.lane x with val := b } } where
  sendable := h.sendable
  le := le_update h hle
  sound := Lanes.sound_raise h.sound (x := x) (b := b) (byteVal_le_byteVal.mpr hle)

/-- A side receives the next frame. -/
theorem Inv.receive (h : Inv addr P total p) {f : InFlight} {rest : List InFlight}
    (hinbox : p.inbox x = f :: rest) {l : Lane} (hl : (p.lane x).Receives addr f.body l) :
    Inv addr P total
      { p with lane := update p.lane x l, inbox := update p.inbox x rest } := by
  have hsub : ∀ f' ∈ rest, f' ∈ p.inbox x := fun f' hf' => by simp [hinbox, hf']
  have hvalues : ∀ v, v ∈ (p.lanes addr).wire x →
      v ∈ values addr rest ∨ f.body.valueFor addr = some v := by
    intro v hv
    obtain ⟨f', hf', hfresh, hvalue⟩ := mem_values.mp hv
    rw [hinbox, List.mem_cons] at hf'
    rcases hf' with rfl | hf'
    · exact .inr hvalue
    · exact .inl (mem_values.mpr ⟨f', hf', hfresh, hvalue⟩)
  have hfewer : ∀ v, v ∈ values addr rest → v ∈ (p.lanes addr).wire x := by
    intro v hv
    obtain ⟨f', hf', hfresh⟩ := mem_values.mp hv
    exact mem_values.mpr ⟨f', hsub f' hf', hfresh⟩
  have hle : ∀ v, f.body.valueFor addr = some v → v ≤ byteVal (p.lane x.other).val :=
    h.le x f (by simp [hinbox])
  have hinboxes : ∀ y, ∀ f' ∈ update p.inbox x rest y, f' ∈ p.inbox y := by
    refine Side.forall_of_other x ?_ ?_
    · simpa using hsub
    · simp
  refine ⟨fun y f' hf' => h.sendable y f' (hinboxes y f' hf'), fun y f' hf' =>
    le_update h hl.val_le y f' (hinboxes y f' hf'), ?_⟩
  have hlanes : LossyLanes.lanes addr
      { p with lane := update p.lane x l, inbox := update p.inbox x rest } =
        { p.lanes addr with
          lane := update (p.lanes addr).lane x l
          wire := update (p.lanes addr).wire x (values addr rest) } := by
    simp only [lanes, Lanes.mk.injEq, and_true, true_and]
    exact Side.map_update _ _ _ _
  rw [hlanes]
  -- the frame is about another address, or its value is parked or taken
  cases hl with
  | other hnone =>
    have hwire : (p.lanes addr).wire x = values addr rest := by
      simp [lanes, hinbox, values, hnone]
    rw [← hwire, Function.update_eq_self]
    simpa [lanes] using h.sound
  | park hv =>
    exact Lanes.sound_parking h.sound (hle _ hv) hfewer fun w hw => by
      simpa [hv, eq_comm] using hvalues w hw
  | take hb =>
    exact Lanes.sound_taking h.sound (hle _ hb) (p.lane x).parked (values addr rest)
      (fun v hv => hv) (fun v hv => .inl hv) hfewer fun w hw => by
        simpa [hb, eq_comm] using hvalues w hw

/-- What was lost, as an update of the list of one side. -/
theorem losing_eq (y : Side) (f : InFlight) (lost : Side → List Body) :
    CutLink.losing y f lost
      = update lost y (if f.stale then lost y else lost y ++ [f.body]) := by
  unfold CutLink.losing
  split_ifs
  · rw [Function.update_eq_self]
  · rfl

/-- The connection loses a frame. -/
theorem Inv.lose (h : Inv addr P total p) {k : ℕ} {f : InFlight} (hf : (p.inbox x)[k]? = some f) :
    Inv addr P total
      { p with
        inbox := update p.inbox x ((p.inbox x).eraseIdx k)
        lost := CutLink.losing x.other f p.lost } := by
  obtain ⟨hk, rfl⟩ := List.getElem?_eq_some_iff.mp hf
  have hsub : ∀ f' ∈ (p.inbox x).eraseIdx k, f' ∈ p.inbox x := fun f' hf' =>
    List.mem_of_mem_eraseIdx hf'
  have hinboxes : ∀ y, ∀ f' ∈ update p.inbox x ((p.inbox x).eraseIdx k) y, f' ∈ p.inbox y := by
    refine Side.forall_of_other x ?_ ?_
    · simpa using hsub
    · simp
  refine ⟨fun y f' hf' => h.sendable y f' (hinboxes y f' hf'), fun y f' hf' =>
    h.le y f' (hinboxes y f' hf'), ?_⟩
  have hlanes : LossyLanes.lanes addr
      { p with
        inbox := update p.inbox x ((p.inbox x).eraseIdx k)
        lost := CutLink.losing x.other (p.inbox x)[k] p.lost } =
        { p.lanes addr with
          wire := update (p.lanes addr).wire x (values addr ((p.inbox x).eraseIdx k))
          whole := update (p.lanes addr).whole x.other ((if (p.inbox x)[k].stale then p.lost x.other
            else p.lost x.other ++ [(p.inbox x)[k].body]).all fun t =>
              (t.valueFor addr).isNone) } := by
    simp only [lanes, losing_eq, Lanes.mk.injEq, true_and]
    exact ⟨Side.map_update _ _ _ _,
      Side.map_update (fun l : List Body => l.all fun t => (t.valueFor addr).isNone) _ _ _⟩
  rw [hlanes]
  -- less is on the wire; while nothing about the address is lost, all of it still is
  refine Lanes.sound_losing h.sound _ _ ?_ ?_
  · intro v hv
    obtain ⟨f', hf', hfresh⟩ := mem_values.mp hv
    exact mem_values.mpr ⟨f', hsub f' hf', hfresh⟩
  · intro hwhole
    -- the frame that is lost was stale, or it is about another address
    have hnone : (p.lanes addr).whole x.other = true ∧
        ((p.inbox x)[k].stale = false → (p.inbox x)[k].body.valueFor addr = none) := by
      cases hstale : (p.inbox x)[k].stale with
      | true => exact ⟨by simpa [hstale, lanes] using hwhole, fun h => by simp at h⟩
      | false =>
        simp only [hstale, Bool.false_eq_true, if_false, List.all_append,
          Bool.and_eq_true] at hwhole
        exact ⟨hwhole.1, fun _ => by simpa using hwhole.2⟩
    refine ⟨hnone.1, fun v hv => ?_⟩
    obtain ⟨f, hmem, hfresh, hvalue⟩ := mem_values.mp hv
    obtain ⟨i, hi, rfl⟩ := List.getElem_of_mem hmem
    -- another frame keeps its place in the list
    have hne : i ≠ k := by
      rintro rfl
      simp [hnone.2 hfresh] at hvalue
    exact mem_values.mpr ⟨_, List.mem_eraseIdx_iff_getElem.mpr ⟨i, hi, hne, rfl⟩, hfresh, hvalue⟩

/-- A side forgets what it has announced.  What it has on its way is stale then. -/
theorem Inv.forget (h : Inv addr P total p) (x : Side) :
    Inv addr P total
      { lane := update p.lane x { p.lane x with cache := none, queued := [] }
        inbox := update p.inbox x.other ((p.inbox x.other).map fun f => { f with stale := true })
        lost := update p.lost x [] } := by
  have hinboxes : ∀ y, ∀ f ∈ update p.inbox x.other
      ((p.inbox x.other).map fun f => { f with stale := true }) y,
      ∃ f' ∈ p.inbox y, f'.body = f.body := by
    refine Side.forall_of_other x ?_ ?_
    · intro f hf
      exact ⟨f, by simpa using hf, rfl⟩
    · intro f hf
      rw [Function.update_self] at hf
      obtain ⟨f', hf', rfl⟩ := List.mem_map.mp hf
      exact ⟨f', hf', rfl⟩
  refine ⟨fun y f hf => ?_, fun y f hf => ?_, ?_⟩
  · obtain ⟨f', hf', heq⟩ := hinboxes y f hf
    exact heq ▸ h.sendable y f' hf'
  · obtain ⟨f', hf', heq⟩ := hinboxes y f hf
    have hle := le_update h (l := { p.lane x with cache := none, queued := [] })
      (BitVec.le_refl _) y f' hf'
    rwa [heq] at hle
  · have hstale : values addr ((p.inbox x.other).map fun f => { f with stale := true }) = [] := by
      simp [values]
    rw [lanes_update addr rfl rfl rfl, hstale]
    exact Lanes.sound_forget h.sound

/-- Two lanes that agree, with nothing on its way. -/
theorem Inv.of_agreed {b : BitVec 8} (hval : ∀ x, (p.lane x).val = b)
    (hcached : ∀ x, (p.lane x).cache = some (byteVal b)) (hqueued : ∀ x, (p.lane x).queued = [])
    (hparked : ∀ x, (p.lane x).parked = []) (hinbox : ∀ x, p.inbox x = []) :
    Inv addr P (byteVal b) p := by
  have hcoming : ∀ x v, ¬ ((p.lanes addr).reliance (byteVal b)).coming x v := by
    intro x v
    simp [Lanes.reliance, lanes, hqueued, hparked, hinbox, values]
  refine ⟨fun x f hf => by simp [hinbox x] at hf, fun x f hf => by simp [hinbox x] at hf, ?_,
    fun x k hk => ?_, fun x v hv => absurd hv (hcoming x v), fun x k hk => .inl ?_⟩
  · simp [Lanes.reliance, lanes, hval]
  all_goals
    simp only [Lanes.reliance] at hk
    split_ifs at hk
    obtain rfl : byteVal b = k := Option.some.inj ((hcached x).symm.trans hk)
    show byteVal b ≤ byteVal (p.lane _).val
    rw [hval]

/-- **Convergence**: when nothing is left to be done on either lane, nothing is in flight, and no
value is lost, both bytes are the highest value ever contributed. -/
theorem Inv.converged (h : Inv addr P total p) (hsettled : ∀ x, (p.lane x).Settled)
    (hinbox : ∀ x, p.inbox x = []) (hlost : ∀ x, ∀ t ∈ p.lost x, t.valueFor addr = none)
    (x : Side) : byteVal (p.lane x).val = total := by
  refine h.sound.converged (fun y v hv => ?_) (fun y => ?_) x
  · rcases hv with hv | hv | hv
    · simp [lanes, (hsettled y.other).2.1] at hv
    · simp [lanes, hinbox, values] at hv
    · simp [lanes, (hsettled y).2.2] at hv
  · have hwhole : (p.lanes addr).whole y = true := by
      simpa [lanes] using hlost y
    simp only [Lanes.reliance, hwhole, if_true]
    exact (hsettled y).1

end LossyLanes

end EmuCoop.Bridge
