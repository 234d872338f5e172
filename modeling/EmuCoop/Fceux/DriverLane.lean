import EmuCoop.Bridge.LossyLanes
import EmuCoop.Fceux.LinkHigh

/-!
# One high byte of a driver

A `GameDriver` at the address of an unmasked one-byte `high` record, as the lane of an engine is:
the byte, the cache entry, and the values for the address in the sleep queue.

A driver has no queue for what it broadcasts: it sends everything at once.  `resync` leaves the
cache alone; what it makes the driver forget is that it has sent what is in there.  So the lane has
a cache entry only while `didCache` is set.

The game may pause at any time, and what it writes then is noticed by nobody.  The byte is above
its cache entry until the game writes it, or its neighbour in the same word, once more.

## Main results

- `writeCallback_does`, `childTick_does` : what a driver does on the lane.
- `handleTable_does` : a table for the address is taken, or it waits.
-/

namespace EmuCoop.Fceux

open EmuCoop.Lib
open EmuCoop.Bridge (Addr Body Kind Lane Mergeable byteVal byteVal_inj byteVal_nonneg byteVal_lt
  byteVal_lt_byteVal byteVal_le_byteVal)
open Function (update)

/-! ## Lanes -/

def GameDriver.lane (addr : Addr) (d : GameDriver) : Lane where
  val := d.mem addr
  cache := if d.didCache then d.cache addr else none
  queued := []
  parked := d.sleepQueue.filterMap (Body.valueFor addr)

/-- The values that a driver sends for an address. -/
def valuesIn (addr : Addr) (out : List Output) : List ℤ :=
  (sends out).filterMap (Body.valueFor addr)

/-- The record's `cond` accepts a value, whatever else is in memory. -/
def LuaRecord.Accepts (record : LuaRecord) (v : ℤ) : Prop :=
  ∀ mem, performTest mem record.cond (some v) record.size = true

/-- A byte that no function of a mode file writes, in a word whose records are single bytes. -/
structure Spec.Untouched (spec : Spec) (addr : Addr) (record : LuaRecord) : Prop
    extends spec.Undisturbed addr record where
  startup : ∀ f, spec.startup = some f → ∀ forceSend mem, f forceSend mem addr = mem addr
  tick : ∀ f, spec.tick = some f → ∀ mem, f mem addr = mem addr
  bytes : ∀ a r, spec.sync.get? a = some r → a / 2 = addr / 2 → r.size.getD .one = .one

/-- A table that is an update, and brings a value that the record can take if it brings one. -/
structure Updates (addr : Addr) (P : ℤ → Prop) (t : Body) : Prop where
  op : t.op = none
  fits : ∀ v, t.valueFor addr = some v → P v

theorem Updates.sendable {addr : Addr} {P : ℤ → Prop} {t : Body} (h : Updates addr P t) :
    Mergeable addr P t :=
  ⟨.inl h.op, fun v hv => ⟨h.op, h.fits v hv⟩⟩

/-- What always holds of a driver with such a record: the cache is not ahead of the byte, and a
driver that has forgotten what it has sent is about to send everything. -/
structure OnDriver (addr : Addr) (P : ℤ → Prop) (d : GameDriver) : Prop where
  cached : ∀ k, d.cache addr = some k → ∃ b : BitVec 8, k = byteVal b ∧ b ≤ d.mem addr
  due : d.didCache = false → d.forceSend = true
  filled : d.didCache = true → d.cache addr ≠ none
  parked : ∀ t ∈ d.sleepQueue, Updates addr P t
  held : P (byteVal (d.mem addr))

/-- The table brings a lower value with a bit that the byte lacks. -/
def lowersAt (addr : Addr) (t : Body) (d : GameDriver) : Bool :=
  match t.valueFor addr with
  | some v => v < byteVal (d.mem addr) && newBits v (byteVal (d.mem addr)) ≠ 0#32
  | none => false

/-- Of tables that are handled one after the other, none makes a running driver take a lower
value. -/
def neverLowers (spec : Spec) (addr : Addr) : List Body → GameDriver → Bool
  | [], _ => true
  | t :: ts, d =>
    !(d.isRunning spec && lowersAt addr t d) &&
      match d.handleTable spec t with
      | .ok (_, d) => neverLowers spec addr ts d
      | .error _ => true

variable {addr a : Addr} {P : ℤ → Prop} {spec : Spec} {record r : LuaRecord}
  {d d' d'' : GameDriver} {out out' : List Output} {t : Body}

/-- From `d` to `d'` nothing has changed that concerns the address. -/
structure Keeps (addr : Addr) (d d' : GameDriver) : Prop where
  mem : d'.mem addr = d.mem addr
  cache : d'.cache addr = d.cache addr
  didCache : d'.didCache = d.didCache
  forceSend : d'.forceSend = d.forceSend
  sleepQueue : d'.sleepQueue = d.sleepQueue

theorem Keeps.refl (addr : Addr) (d : GameDriver) : Keeps addr d d := ⟨rfl, rfl, rfl, rfl, rfl⟩

theorem Keeps.trans (h : Keeps addr d d') (h' : Keeps addr d' d'') : Keeps addr d d'' where
  mem := h'.mem.trans h.mem
  cache := h'.cache.trans h.cache
  didCache := h'.didCache.trans h.didCache
  forceSend := h'.forceSend.trans h.forceSend
  sleepQueue := h'.sleepQueue.trans h.sleepQueue

theorem Keeps.lane (h : Keeps addr d d') : d'.lane addr = d.lane addr := by
  simp [GameDriver.lane, h.mem, h.cache, h.didCache, h.sleepQueue]

theorem Keeps.onDriver (h : Keeps addr d d') (hinv : OnDriver addr P d) : OnDriver addr P d' where
  cached k hk := by rw [h.mem]; exact hinv.cached k (h.cache ▸ hk)
  due := by rw [h.didCache, h.forceSend]; exact hinv.due
  filled := by rw [h.didCache, h.cache]; exact hinv.filled
  parked := by rw [h.sleepQueue]; exact hinv.parked
  held := by rw [h.mem]; exact hinv.held

/-- What a driver does on the lane, with what it sends. -/
structure Does (addr : Addr) (P : ℤ → Prop) (d : GameDriver) (out : List Output)
    (d' : GameDriver) : Prop where
  onDriver : OnDriver addr P d'
  moves : Lane.Moves (d.lane addr) (valuesIn addr out) (d'.lane addr)
  news : ∀ t ∈ sends out, Updates addr P t

@[simp] theorem sends_append (out out' : List Output) :
    sends (out ++ out') = sends out ++ sends out' := by
  simp [sends]

@[simp] theorem valuesIn_append (out out' : List Output) :
    valuesIn addr (out ++ out') = valuesIn addr out ++ valuesIn addr out' := by
  simp [valuesIn]

theorem mem_sends : t ∈ sends out ↔ .send t ∈ out := by
  simp only [sends, List.mem_filterMap]
  constructor
  · rintro ⟨o, ho, hsend⟩
    cases o with
    | send t' =>
      obtain rfl : t' = t := Option.some.inj hsend
      exact ho
    | abort | message => simp at hsend
  · exact fun h => ⟨.send t, h, rfl⟩

theorem mem_valuesIn {v : ℤ} :
    v ∈ valuesIn addr out ↔ ∃ t, .send t ∈ out ∧ t.valueFor addr = some v := by
  simp [valuesIn, mem_sends]

/-- The lane stays as it is. -/
theorem Keeps.does (h : Keeps addr d d') (hinv : OnDriver addr P d)
    (hout : ∀ t ∈ sends out, t.op = none ∧ t.valueFor addr = none) : Does addr P d out d' where
  onDriver := h.onDriver hinv
  moves := by
    have hvalues : valuesIn addr out = [] := by
      rw [valuesIn, List.filterMap_eq_nil_iff]
      exact fun t ht => (hout t ht).2
    rw [h.lane, hvalues]
    exact .rest _
  news t ht := ⟨(hout t ht).1, fun v hv => by simp [(hout t ht).2] at hv⟩

theorem Does.trans (h : Does addr P d out d') (h' : Does addr P d' out' d'') :
    Does addr P d (out ++ out') d'' where
  onDriver := h'.onDriver
  moves := by
    rw [valuesIn_append]
    exact h.moves.trans h'.moves
  news t ht := by
    rw [sends_append, List.mem_append] at ht
    exact ht.elim (h.news t) (h'.news t)

/-! ## Bytes -/

section Bytes

variable {b c : BitVec 8}

theorem memoryRead_single {size : Option Size} (h : size.getD .one = .one) (mem : Mem) :
    memoryRead mem addr size = byteVal (mem addr) := by
  simp [memoryRead, h, Size.bytes, readBytes]

theorem inRange_byteVal (h : record.size.getD .one = .one) (b : BitVec 8) :
    record.InRange (byteVal b) := by
  refine ⟨byteVal_nonneg b, ?_⟩
  rw [h]
  exact byteVal_lt b

theorem newBits_msb (b c : BitVec 8) : (newBits (byteVal b) (byteVal c)).msb = false := by
  have hword : (word (byteVal b)).msb = false := by
    rw [BitVec.msb_eq_false_iff_two_mul_lt, word, byteVal, BitVec.ofInt_natCast,
      BitVec.toNat_ofNat]
    have := b.isLt
    omega
  simp [newBits, hword]

/-- Of two bytes, the higher one has a bit that the other one lacks. -/
theorem newBits_gained (h : record.size.getD .one = .one) (hlt : c < b) :
    0 < (newBits (byteVal b) (byteVal c)).toInt :=
  newBits_pos (inRange_byteVal h b) (inRange_byteVal h c) (byteVal_lt_byteVal.mpr hlt)
    (newBits_msb b c)

end Bytes

/-! ## Sending -/

section Sending

variable (hget : spec.sync.get? addr = some record) (hkind : record.kind = .high)
  (hmask : record.mask = none) (hund : spec.Untouched addr record)
  (hP : ∀ v, P v → (∃ b : BitVec 8, v = byteVal b) ∧ record.Accepts v)

include hget hund in
theorem size_eq_one : record.size.getD .one = .one := hund.bytes addr record hget rfl

include hget hund in
/-- A function of the mode file that leaves the record alone leaves the byte alone. -/
theorem byte_eq {mem mem' : Mem}
    (h : memoryRead mem' addr record.size = memoryRead mem addr record.size) :
    mem' addr = mem addr := by
  rw [memoryRead_single (size_eq_one hget hund), memoryRead_single (size_eq_one hget hund)] at h
  exact byteVal_inj.mp h

include hget hund in
/-- A `writeTrigger` changes nothing on the lane. -/
theorem fireWriteTrigger_keeps (hr : spec.sync.get? a = some r) (v : ℤ) (p : Option ℤ)
    (d : GameDriver) : Keeps addr d (d.fireWriteTrigger r v p) := by
  unfold GameDriver.fireWriteTrigger
  cases htrigger : r.writeTrigger with
  | none => exact .refl addr d
  | some f =>
    exact ⟨byte_eq hget hund (hund.writeTrigger a r f hr htrigger v p d.mem), rfl, rfl, rfl, rfl⟩

include hget hund in
/-- Nor does a `receiveTrigger`. -/
theorem fireReceiveTrigger_keeps (hr : spec.sync.get? a = some r) (v : Option ℤ) (p : ℤ)
    (d : GameDriver) : Keeps addr d (d.fireReceiveTrigger r v p) := by
  unfold GameDriver.fireReceiveTrigger
  cases htrigger : r.receiveTrigger with
  | none => exact .refl addr d
  | some f =>
    exact ⟨byte_eq hget hund (hund.receiveTrigger a r f hr htrigger v p d.mem), rfl, rfl, rfl, rfl⟩

/-- What is broadcast are the values of records. -/
theorem of_mem_broadcast {forceSend : Bool} {mem : Mem} {cache : Addr → Option ℤ}
    (h : .send t ∈ (spec.sync.pass (GameDriver.cacheAddr forceSend mem) cache).2) :
    ∃ k r, spec.sync.get? k = some r ∧ t = .update k (memoryRead mem k r.size) := by
  rw [Dict.pass_snd, List.mem_flatMap] at h
  obtain ⟨p, hp, ht⟩ := h
  refine ⟨p.1, p.2, Dict.get?_eq_some_iff.mpr hp, ?_⟩
  simp only [GameDriver.cacheAddr] at ht
  split_ifs at ht
  · exact Output.send.inj (List.mem_singleton.mp ht)
  · exact absurd ht List.not_mem_nil

include hget hkind hund in
/-- The byte is broadcast, unless it is zero. -/
theorem mem_broadcast {mem : Mem} (cache : Addr → Option ℤ) (hne : mem addr ≠ 0) :
    .send (.update addr (byteVal (mem addr))) ∈
      (spec.sync.pass (GameDriver.cacheAddr true mem) cache).2 := by
  have hval : byteVal (mem addr) ≠ 0 := by
    intro hzero
    exact hne (byteVal_inj.mp (hzero.trans rfl))
  rw [Dict.pass_snd, List.mem_flatMap]
  refine ⟨(addr, record), Dict.get?_eq_some_iff.mp hget, ?_⟩
  simp [GameDriver.cacheAddr, memoryRead_single (size_eq_one hget hund), hval, hkind]

include hget hund in
/-- What a driver that has forgotten what it has sent does at the first moment of running. -/
theorem checkFirstRunning_cold (hcold : d.didCache = false) :
    sends (d.checkFirstRunning spec).1
        = sends (spec.sync.pass (GameDriver.cacheAddr d.forceSend d.mem) d.cache).2 ∧
      (d.checkFirstRunning spec).2.mem addr = d.mem addr ∧
      (d.checkFirstRunning spec).2.cache addr
        = some ((d.cache addr).getD (byteVal (d.mem addr))) ∧
      (d.checkFirstRunning spec).2.didCache = true ∧
      (d.checkFirstRunning spec).2.sleepQueue = d.sleepQueue := by
  rw [GameDriver.checkFirstRunning, if_neg (by simp [hcold])]
  refine ⟨rfl, ?_, ?_, rfl, rfl⟩
  · cases hstartup : spec.startup with
    | none => rfl
    | some f => exact hund.startup f hstartup d.forceSend d.mem
  · show (spec.sync.pass (GameDriver.cacheAddr d.forceSend d.mem) d.cache).1 addr = _
    rw [Dict.pass_fst_of_get? _ _ _ hget, GameDriver.cacheAddr,
      memoryRead_single (size_eq_one hget hund)]

include hget hkind hund in
/-- **The first moment of running**: a driver that has forgotten what it has sent sends it again. -/
theorem checkFirstRunning_does (hinv : OnDriver addr P d) :
    Does addr P d (d.checkFirstRunning spec).1 (d.checkFirstRunning spec).2 ∧
      (d.checkFirstRunning spec).2.didCache = true ∧
      (d.checkFirstRunning spec).2.mem addr = d.mem addr ∧
      (d.checkFirstRunning spec).2.sleepQueue = d.sleepQueue := by
  by_cases hdid : d.didCache = true
  · rw [checkFirstRunning_of_didCache hdid]
    exact ⟨(Keeps.refl addr d).does hinv (by simp), hdid, rfl, rfl⟩
  have hcold : d.didCache = false := by simpa using hdid
  obtain ⟨hout, hmem, hentry, hdone, hqueue⟩ := checkFirstRunning_cold hget hund hcold
  rw [hinv.due hcold] at hout
  generalize (d.checkFirstRunning spec).1 = out at hout ⊢
  generalize (d.checkFirstRunning spec).2 = d' at hmem hentry hdone hqueue ⊢
  have hsent : ∀ t ∈ sends out, ∃ k r, spec.sync.get? k = some r ∧
      t = .update k (memoryRead d.mem k r.size) := by
    intro t ht
    rw [hout, mem_sends] at ht
    exact of_mem_broadcast ht
  have hnews : ∀ v ∈ valuesIn addr out, v = byteVal (d.mem addr) := by
    intro v hv
    obtain ⟨t, ht, hv⟩ := mem_valuesIn.mp hv
    obtain ⟨k, r, hr, rfl⟩ := hsent t (mem_sends.mpr ht)
    by_cases hk : k = addr
    · subst hk
      obtain rfl : record = r := Option.some.inj (hget.symm.trans hr)
      rw [memoryRead_single (size_eq_one hget hund)] at hv
      simpa [Body.valueFor, Body.update, eq_comm] using hv
    · simp [Body.valueFor, Body.update, hk] at hv
  -- the entry is at most the byte
  obtain ⟨b, hb, hle⟩ : ∃ b : BitVec 8, d'.cache addr = some (byteVal b) ∧ b ≤ d.mem addr := by
    rw [hentry]
    cases hold : d.cache addr with
    | none => exact ⟨d.mem addr, rfl, BitVec.le_refl _⟩
    | some k =>
      obtain ⟨b, rfl, hle⟩ := hinv.cached k hold
      exact ⟨b, rfl, hle⟩
  -- the cache now holds the entry, the memory and the sleep queue are as before
  refine ⟨⟨⟨fun k hk => ?_, fun h => ?_, fun _ => ?_, ?_, ?_⟩, ?_, fun t ht => ?_⟩, hdone, hmem,
    hqueue⟩
  · rw [hb, Option.some.injEq] at hk
    exact ⟨b, hk.symm, by rw [hmem]; exact hle⟩
  · simp [hdone] at h
  · simp [hb]
  · rw [hqueue]
    exact hinv.parked
  · rw [hmem]
    exact hinv.held
  -- a zero is cached without being sent; any other byte is broadcast
  · have hzero : byteVal b = 0 ∨ byteVal (d.mem addr) ∈ valuesIn addr out := by
      by_cases hzero : d.mem addr = 0
      · left
        rw [hzero] at hle
        rw [BitVec.le_zero_iff.mp hle]
        rfl
      · refine .inr (List.mem_filterMap.mpr
          ⟨.update addr (byteVal (d.mem addr)), ?_, by simp [Body.valueFor, Body.update]⟩)
        rw [hout, mem_sends]
        exact mem_broadcast hget hkind hund d.cache hzero
    have hfill := @Lane.Moves.fill (d.lane addr) (byteVal b) _ (valuesIn addr out) [] hnews
      (.inr ⟨byteVal_le_byteVal.mpr hle, hzero⟩) (by simp [GameDriver.lane])
    have hlane : d'.lane addr = { d.lane addr with cache := some (byteVal b), queued := [] } := by
      simp [GameDriver.lane, hmem, hdone, hqueue, hb]
    rw [hlane]
    exact hfill
  -- what is sent is the driver's own byte
  · obtain ⟨k, r, -, heq⟩ := hsent t ht
    refine ⟨by rw [heq]; rfl, fun v hv => ?_⟩
    rw [hnews v (List.mem_filterMap.mpr ⟨t, ht, hv⟩)]
    exact hinv.held

/-- A byte above its cache entry is sent. -/
theorem announce_does (hinv : OnDriver addr P d) (hdid : d.didCache = true) {k : BitVec 8}
    (hk : d.cache addr = some (byteVal k)) (hlt : k < d.mem addr) :
    Does addr P d [.send (.update addr (byteVal (d.mem addr)))]
      { d with cache := update d.cache addr (some (byteVal (d.mem addr))) } := by
  have hvalues : valuesIn addr [.send (.update addr (byteVal (d.mem addr)))]
      = [byteVal (d.mem addr)] := by
    simp [valuesIn, sends, Body.valueFor, Body.update]
  refine ⟨⟨fun k' hk' => ?_, hinv.due, fun _ => by simp, hinv.parked, hinv.held⟩, ?_, ?_⟩
  · obtain rfl : byteVal (d.mem addr) = k' := by simpa using hk'
    exact ⟨_, rfl, BitVec.le_refl _⟩
  · have hcached : (d.lane addr).cache = some (byteVal k) := by
      simp [GameDriver.lane, hdid, hk]
    have hannounce := Lane.Moves.announce hcached (byteVal_lt_byteVal.mpr hlt)
    rw [hvalues]
    have hlane : GameDriver.lane addr
        { d with cache := update d.cache addr (some (byteVal (d.mem addr))) }
          = { d.lane addr with cache := some (byteVal (d.mem addr)) } := by
      simp [GameDriver.lane, hdid]
    rw [hlane]
    exact hannounce
  · intro t ht
    obtain rfl : t = .update addr (byteVal (d.mem addr)) := by simpa [sends] using ht
    refine ⟨rfl, fun v hv => ?_⟩
    obtain rfl : byteVal (d.mem addr) = v := by simpa [Body.valueFor, Body.update] using hv
    exact hinv.held

/-- Whatever is cached for another address, the lane stays as it is. -/
theorem keeps_cache (ha : a ≠ addr) (v : Option ℤ) :
    Keeps addr d { d with cache := update d.cache a v } :=
  ⟨rfl, Function.update_of_ne ha.symm _ _, rfl, rfl, rfl⟩

include hget hkind hmask hund hP in
/-- A write that the game is caught at: a byte above its cache entry is sent. -/
theorem caughtWrite_does (hinv : OnDriver addr P d) (hr : spec.sync.get? a = some r)
    {size : Option Size} (hsize : a = addr → size.getD .one = .one) :
    Does addr P d (d.caughtWrite spec a r size).1 (d.caughtWrite spec a r size).2 := by
  unfold GameDriver.caughtWrite
  cases hrun : d.isRunning spec with
  | false => exact (Keeps.refl addr d).does hinv (by simp)
  | true =>
    obtain ⟨hfirst, hdid, -, -⟩ := checkFirstRunning_does hget hkind hund hinv
    simp only [if_true]
    generalize (d.checkFirstRunning spec).1 = out₁ at hfirst ⊢
    generalize (d.checkFirstRunning spec).2 = d₁ at hfirst hdid ⊢
    have hinv₁ := hfirst.onDriver
    have hkeeps :=
      fireWriteTrigger_keeps hget hund hr (memoryRead d₁.mem a size) (d₁.cache a) d₁
    generalize d₁.fireWriteTrigger r (memoryRead d₁.mem a size) (d₁.cache a) = d₂ at hkeeps ⊢
    have hinv₂ := hkeeps.onDriver hinv₁
    have hquiet : Does addr P d₁ [] d₂ := hkeeps.does hinv₁ (by simp)
    by_cases ha : a = addr
    · subst ha
      obtain rfl : record = r := Option.some.inj (hget.symm.trans hr)
      obtain ⟨k, hk⟩ := Option.ne_none_iff_exists'.mp (hinv₁.filled hdid)
      obtain ⟨c, rfl, hle⟩ := hinv₁.cached k hk
      have haccepts := (hP _ hinv₁.held).2 d₂.mem
      rw [memoryRead_single (hsize rfl), hk]
      simp only [recordChanged_high hkind hmask (inRange_byteVal (size_eq_one hget hund) _),
        haccepts, Bool.and_true, decide_eq_true_eq, hkind]
      by_cases hlt : c < d₁.mem a
      · rw [if_pos (newBits_gained (size_eq_one hget hund) hlt), ← hkeeps.mem]
        have hannounced := announce_does hinv₂ (hkeeps.didCache.trans hdid)
          (hkeeps.cache.trans hk) (by rw [hkeeps.mem]; exact hlt)
        exact hfirst.trans (hquiet.trans hannounced)
      · obtain rfl : c = d₁.mem a := BitVec.le_antisymm hle (BitVec.not_lt.mp hlt)
        rw [if_neg (by simp [newBits])]
        simpa using hfirst.trans hquiet
    -- whatever becomes of it, it is about another address
    · have hcached := hkeeps.trans (keeps_cache ha (some (memoryRead d₁.mem a size)))
      split_ifs
      · refine hfirst.trans (hcached.does hinv₁ fun t ht => ?_)
        obtain rfl := List.mem_singleton.mp ht
        exact ⟨rfl, by simp [Body.valueFor, ha]⟩
      · simpa using hfirst.trans (hcached.does hinv₁ (by simp : ∀ t ∈ sends [], _))
      · simpa using hfirst.trans hquiet

/-- The two bytes of a word. -/
theorem half_of_word (k : ℤ) : (k - k % 2) / 2 = k / 2 ∧ (k - k % 2 + 1) / 2 = k / 2 := by
  omega

include hget hkind hmask hund hP in
/-- **A write callback** looks at both bytes of a word. -/
theorem writeCallback_does (hinv : OnDriver addr P d) (k : Addr) :
    Does addr P d (d.writeCallback spec k).1 (d.writeCallback spec k).2 := by
  unfold GameDriver.writeCallback
  cases hk : spec.sync.get? k with
  | none => exact (Keeps.refl addr d).does hinv (by simp)
  | some at_k =>
    -- if one of them is the record's, the callback reads a single byte there
    have hcaught : ∀ {e : GameDriver} {b : Addr} {r : LuaRecord}, OnDriver addr P e →
        spec.sync.get? b = some r → b / 2 = k / 2 →
        Does addr P e (e.caughtWrite spec b r (some (at_k.size.getD .one))).1
          (e.caughtWrite spec b r (some (at_k.size.getD .one))).2 := by
      intro e b r he hb hword
      apply caughtWrite_does hget hkind hmask hund hP he hb
      rintro rfl
      exact hund.bytes k at_k hk hword.symm
    obtain ⟨hlow, hhigh⟩ := half_of_word k
    simp only [List.foldl_cons, List.foldl_nil]
    cases h₁ : spec.sync.get? (k - k % 2) with
    | none =>
      cases h₂ : spec.sync.get? (k - k % 2 + 1) with
      | none => exact (Keeps.refl addr d).does hinv (by simp)
      | some r₂ => exact hcaught hinv h₂ hhigh
    | some r₁ =>
      have hfirst := hcaught hinv h₁ hlow
      cases h₂ : spec.sync.get? (k - k % 2 + 1) with
      | none => exact hfirst
      | some r₂ => exact hfirst.trans (hcaught hfirst.onDriver h₂ hhigh)

/-! ## Receiving -/

/-- What `memoryWrite` does to a driver. -/
theorem memoryWrite_rest {w : ℤ} {size : Option Size} (h : memoryWrite a w size d = .ok d') :
    d'.forceSend = d.forceSend ∧ d'.sleepQueue = d.sleepQueue := by
  unfold memoryWrite at h
  cases hc : d.cache a with
  | none =>
    simp only [hc] at h
    obtain rfl := Except.ok.inj h
    exact ⟨rfl, rfl⟩
  | some q =>
    cases hs : d.cacheSize a with
    | none =>
      simp only [hc, hs] at h
      obtain rfl := Except.ok.inj h
      exact ⟨rfl, rfl⟩
    | some previous =>
      simp only [hc, hs] at h
      split_ifs at h
      obtain rfl := Except.ok.inj h
      exact ⟨rfl, rfl⟩

include hget hund in
/-- Writing another record's bytes. -/
theorem memoryWrite_keeps (ha : a ≠ addr) (hr : spec.sync.get? a = some r) {w : ℤ}
    (h : memoryWrite a w r.size d = .ok d') : Keeps addr d d' := by
  obtain ⟨hmem, hdid, hcache⟩ := memoryWrite_eq_ok h
  obtain ⟨hforce, hqueue⟩ := memoryWrite_rest h
  refine ⟨?_, ?_, hdid, hforce, hqueue⟩
  · rw [hmem]
    apply writeBytes_of_outside
    apply hund.apart a r hr ha addr le_rfl
    rw [size_eq_one hget hund]
    exact Int.lt_succ addr
  · rw [hcache]
    split_ifs
    · exact Function.update_of_ne ha.symm _ _
    · rfl

include hget hund in
/-- A table for another record. -/
theorem applyTable_keeps (ha : a ≠ addr) (hr : spec.sync.get? a = some r)
    (h : GameDriver.applyTable a r t out d = .ok (out', d')) :
    Keeps addr d d' ∧ sends out' = sends out := by
  obtain ⟨fired, hfired, hwritten⟩ := GameDriver.applyTable_cases h
  have hkeeps : Keeps addr d fired := by
    rcases hfired with rfl | ⟨v, p, rfl⟩
    · exact .refl addr _
    · exact fireReceiveTrigger_keeps hget hund hr v p d
  rcases hwritten with ⟨rfl, rfl⟩ | ⟨w, text, named, hwrite, rfl⟩
  · exact ⟨hkeeps, rfl⟩
  · exact ⟨hkeeps.trans (memoryWrite_keeps hget hund ha hr hwrite), by simp⟩

include hget hund in
/-- Writing the byte.  What is written is cached. -/
theorem memoryWrite_taking (hinv : OnDriver addr P d) (hdid : d.didCache = true) {b : BitVec 8}
    (hb : P (byteVal b)) (hlt : d.mem addr < b)
    (h : memoryWrite addr (byteVal b) record.size d = .ok d') :
    OnDriver addr P d' ∧ d'.didCache = true ∧ d'.sleepQueue = d.sleepQueue ∧
      d'.lane addr = (d.lane addr).taking b := by
  obtain ⟨hmem, hdid', hcache⟩ := memoryWrite_eq_ok h
  obtain ⟨hforce, hqueue⟩ := memoryWrite_rest h
  rw [if_pos (Option.isSome_iff_ne_none.mpr (hinv.filled hdid))] at hcache
  have hval : d'.mem addr = b := by
    have hread := readBytes_writeBytes d.mem addr 1 (byteVal_nonneg b) (byteVal_lt b)
    rw [hmem, size_eq_one hget hund]
    simpa [readBytes, Size.bytes, byteVal_inj] using hread
  have hentry : d'.cache addr = some (byteVal b) := by rw [hcache, Function.update_self]
  rw [hdid] at hdid'
  refine ⟨⟨fun k hk => ?_, fun hcold => ?_, fun _ => by simp [hentry], ?_, ?_⟩, hdid', hqueue, ?_⟩
  · obtain rfl : byteVal b = k := Option.some.inj (hentry.symm.trans hk)
    exact ⟨b, rfl, by rw [hval]; exact BitVec.le_refl b⟩
  · simp [hdid'] at hcold
  · rw [hqueue]
    exact hinv.parked
  · rw [hval]
    exact hb
  · have hlt' : (d.lane addr).val < b := hlt
    rw [Lane.taking, if_pos hlt']
    simp [GameDriver.lane, hval, hentry, hdid', hqueue]

include hget hkind hmask hund hP in
/-- **A table for the byte**: the driver takes a higher value. -/
theorem applyTable_taking (hinv : OnDriver addr P d) (hdid : d.didCache = true) {b : BitVec 8}
    (hb : P (byteVal b)) (hvalue : t.value = some (byteVal b)) (haddr : t.addr = some addr)
    (hlower : lowersAt addr t d = false)
    (h : GameDriver.applyTable addr record t out d = .ok (out', d')) :
    OnDriver addr P d' ∧ d'.didCache = true ∧ d'.sleepQueue = d.sleepQueue ∧
      sends out' = sends out ∧ d'.lane addr = (d.lane addr).taking b := by
  have hsize := size_eq_one hget hund
  have haccepts := (hP _ hb).2 d.mem
  -- the driver compares the bits that are new; by `hlower` they are none for a lower value
  have hpos : 0 < (newBits (byteVal b) (byteVal (d.mem addr))).toInt ↔ d.mem addr < b := by
    refine ⟨fun hpos => ?_, newBits_gained hsize⟩
    by_contra hnot
    rcases (byteVal_le_byteVal.mpr (BitVec.not_lt.mp hnot)).lt_or_eq with hlt | heq
    · have hzero : newBits (byteVal b) (byteVal (d.mem addr)) = 0#32 := by
        simpa [lowersAt, Body.valueFor, haddr, hvalue, hlt] using hlower
      simp [hzero] at hpos
    · simp [heq, newBits] at hpos
  simp only [GameDriver.applyTable, hvalue, memoryRead_single hsize,
    recordChanged_high hkind hmask (inRange_byteVal hsize _), haccepts, Bool.and_true, hkind,
    Bool.or_false, hpos, decide_eq_true_eq] at h
  -- a higher value: the trigger fires, and the value is written
  by_cases hlt : d.mem addr < b
  · simp only [hlt, if_true, decide_true] at h
    have hkeeps := fireReceiveTrigger_keeps hget hund hget (some (byteVal b))
      (byteVal (d.mem addr)) d
    generalize d.fireReceiveTrigger record (some (byteVal b)) (byteVal (d.mem addr)) = fired
      at hkeeps h
    cases hwrite : memoryWrite addr (byteVal b) record.size fired with
    | error e => simp [hwrite, Except.map] at h
    | ok d₂ =>
      simp only [hwrite, Except.map, Except.ok.injEq, Prod.mk.injEq] at h
      obtain ⟨rfl, rfl⟩ := h
      obtain ⟨hinv', hdid', hqueue, hlane⟩ := memoryWrite_taking hget hund (hkeeps.onDriver hinv)
        (hkeeps.didCache.trans hdid) hb (hkeeps.mem ▸ hlt) hwrite
      rw [hkeeps.lane] at hlane
      exact ⟨hinv', hdid', hqueue.trans hkeeps.sleepQueue, by simp, hlane⟩
  · simp only [hlt, if_false, decide_false, Except.ok.injEq, Prod.mk.injEq] at h
    obtain ⟨rfl, rfl⟩ := h
    have hnot : ¬ (d.lane addr).val < b := hlt
    exact ⟨hinv, hdid, rfl, rfl, by rw [Lane.taking, if_neg hnot]⟩

/-- What becomes of a table while the game is running: it is about something else, or its value is
taken. -/
inductive Takes (addr : Addr) (t : Body) (l : Lane) : Lane → Prop
  | other (hnone : t.valueFor addr = none) : Takes addr t l l
  | take {b : BitVec 8} (hb : t.valueFor addr = some (byteVal b)) : Takes addr t l (l.taking b)

theorem Takes.receives {l l' : Lane} (h : Takes addr t l l') : l.Receives addr t l' := by
  cases h with
  | other hnone => exact .other hnone
  | take hb => exact .take hb

include hget hkind hmask hund hP in
/-- A table that is handled while the game is running. -/
theorem handleTable_running (hinv : OnDriver addr P d) (hop : t.op = none)
    (hrun : d.isRunning spec = true) (ht : ∀ v, t.valueFor addr = some v → P v)
    (hlower : lowersAt addr t d = false) (h : d.handleTable spec t = .ok (out, d')) :
    OnDriver addr P d' ∧ d'.didCache = true ∧ d'.sleepQueue = d.sleepQueue ∧
      sends out = sends (d.checkFirstRunning spec).1 ∧
      Takes addr t ((d.checkFirstRunning spec).2.lane addr) (d'.lane addr) := by
  obtain ⟨hfirst, hdid, hmem, hqueue⟩ := checkFirstRunning_does hget hkind hund hinv
  simp only [GameDriver.handleTable, hop, hrun, if_true] at h
  generalize (d.checkFirstRunning spec).1 = out₁ at hfirst h ⊢
  generalize (d.checkFirstRunning spec).2 = d₁ at hfirst hdid hmem hqueue h ⊢
  have hinv₁ := hfirst.onDriver
  -- behind the first moment of running: no address, an address that is not synced, another record,
  -- or the record
  cases haddr : t.addr with
  | none =>
    simp only [haddr, Except.ok.injEq, Prod.mk.injEq] at h
    obtain ⟨rfl, rfl⟩ := h
    exact ⟨hinv₁, hdid, hqueue, by simp [sends], .other (by simp [Body.valueFor, haddr])⟩
  | some a =>
    have hother : a ≠ addr → t.valueFor addr = none := by
      intro ha
      simp [Body.valueFor, haddr, ha]
    cases hr : spec.sync.get? a with
    | none =>
      simp only [haddr, hr, Except.ok.injEq, Prod.mk.injEq] at h
      obtain ⟨rfl, rfl⟩ := h
      have ha : a ≠ addr := by
        rintro rfl
        simp [hget] at hr
      exact ⟨hinv₁, hdid, hqueue, by simp [sends], .other (hother ha)⟩
    | some r =>
      simp only [haddr, hr] at h
      by_cases ha : a = addr
      · subst ha
        obtain rfl : record = r := Option.some.inj (hget.symm.trans hr)
        cases hvalue : t.value with
        | none => simp [GameDriver.applyTable, hvalue] at h
        | some v =>
          have hfor : t.valueFor a = some v := by simp [Body.valueFor, haddr, hvalue]
          obtain ⟨⟨b, rfl⟩, -⟩ := hP v (ht v hfor)
          have hlower₁ : lowersAt a t d₁ = false := by
            rw [← hlower, lowersAt, lowersAt, hmem]
          obtain ⟨hinv', hdid', hqueue', hsends, hlane⟩ := applyTable_taking hget hkind hmask hund
            hP hinv₁ hdid (ht _ hfor) hvalue haddr hlower₁ h
          exact ⟨hinv', hdid', hqueue'.trans hqueue, hsends, hlane ▸ .take hfor⟩
      -- another record does not touch the byte
      · obtain ⟨hkeeps, hsends⟩ := applyTable_keeps hget hund ha hr h
        exact ⟨hkeeps.onDriver hinv₁, hkeeps.didCache.trans hdid,
          hkeeps.sleepQueue.trans hqueue, hsends, hkeeps.lane ▸ .other (hother ha)⟩

include hget hkind hmask hund hP in
/-- **A table is handled**: a value for the address is taken, or waits for the game to run. -/
theorem handleTable_does (hinv : OnDriver addr P d) (ht : Mergeable addr P t)
    (hlower : neverLowers spec addr [t] d = true) (h : d.handleTable spec t = .ok (out, d')) :
    OnDriver addr P d' ∧ (∀ t ∈ sends out, Updates addr P t) ∧
      ∃ l, Lane.Moves (d.lane addr) (valuesIn addr out) l ∧ l.Receives addr t (d'.lane addr) := by
  -- a table with an operation names no value for the address
  rcases ht.op with hop | hop
  -- the game runs: the table is taken, behind what the first moment of running sends
  · cases hrun : d.isRunning spec with
    | true =>
      have hkept : lowersAt addr t d = false := by
        simpa [neverLowers, hrun, h] using hlower
      obtain ⟨hinv', -, -, hsends, htaken⟩ := handleTable_running hget hkind hmask hund hP hinv hop
        hrun (fun v hv => (ht.fits v hv).2) hkept h
      obtain ⟨hfirst, -⟩ := checkFirstRunning_does hget hkind hund hinv
      have hvalues : valuesIn addr out = valuesIn addr (d.checkFirstRunning spec).1 := by
        rw [valuesIn, hsends, valuesIn]
      refine ⟨hinv', by rw [hsends]; exact hfirst.news, _, ?_, htaken.receives⟩
      rw [hvalues]
      exact hfirst.moves
    | false =>
      simp only [GameDriver.handleTable, hop, hrun, Bool.false_eq_true, if_false, Except.ok.injEq,
        Prod.mk.injEq] at h
      obtain ⟨rfl, rfl⟩ := h
      refine ⟨⟨hinv.cached, hinv.due, hinv.filled, fun t' ht' => ?_, hinv.held⟩, by simp,
        d.lane addr, .rest _, ?_⟩
      · rcases List.mem_append.mp ht' with hold | hnew
        · exact hinv.parked t' hold
        · obtain rfl := List.mem_singleton.mp hnew
          exact ⟨hop, fun v hv => (ht.fits v hv).2⟩
      -- it does not: the table waits in the sleep queue
      · cases hvalue : t.valueFor addr with
        | none =>
          have hlane : GameDriver.lane addr { d with sleepQueue := d.sleepQueue ++ [t] }
              = d.lane addr := by
            simp [GameDriver.lane, hvalue]
          exact hlane ▸ .other hvalue
        | some v =>
          have hlane : GameDriver.lane addr { d with sleepQueue := d.sleepQueue ++ [t] }
              = { d.lane addr with parked := (d.lane addr).parked ++ [v] } := by
            simp [GameDriver.lane, hvalue]
          exact hlane ▸ .park hvalue
  · have hnone : t.valueFor addr = none := Option.eq_none_iff_forall_ne_some.mpr fun v hv => by
      simp [(ht.fits v hv).1] at hop
    have hsame : sends out = [] ∧ d' = d := by
      simp only [GameDriver.handleTable, hop, if_true] at h
      split_ifs at h
      · obtain ⟨rfl, rfl⟩ := Prod.mk.injEq .. ▸ Except.ok.inj h
        exact ⟨rfl, rfl⟩
      · obtain ⟨rfl, rfl⟩ := Prod.mk.injEq .. ▸ Except.ok.inj h
        exact ⟨rfl, rfl⟩
    obtain ⟨hsends, rfl⟩ := hsame
    refine ⟨hinv, by simp [hsends], d'.lane addr, ?_, .other hnone⟩
    rw [valuesIn, hsends]
    exact .rest _

/-- One round of the loop over the sleep queue in `childTick`. -/
def GameDriver.handleNext (spec : Spec) (p : List Output × GameDriver) (t : Body) :
    Except String (List Output × GameDriver) :=
  (p.2.handleTable spec t).map fun q => (p.1 ++ q.1, q.2)

include hget hkind hmask hund hP in
/-- The tables of the sleep queue are handled one after the other.  Those that come when the game
has paused again go on waiting. -/
theorem handleAll_moves {ts : List Body} (hinv : OnDriver addr P d) (hdid : d.didCache = true)
    (hts : ∀ t ∈ ts, Updates addr P t) (hlower : neverLowers spec addr ts d = true)
    (h : ts.foldlM (GameDriver.handleNext spec) (out, d) = .ok (out', d')) :
    OnDriver addr P d' ∧ sends out' = sends out ∧
      Lane.Moves { d.lane addr with
        parked := ts.filterMap (Body.valueFor addr) ++ (d.lane addr).parked } []
        (d'.lane addr) := by
  -- on the tables that are left; the condition `neverLowers` follows the same recursion
  induction ts generalizing out d with
  | nil =>
    obtain ⟨rfl, rfl⟩ := Prod.mk.injEq .. ▸ Except.ok.inj h
    exact ⟨hinv, rfl, .rest _⟩
  | cons t ts ih =>
    have hupdate := hts t List.mem_cons_self
    cases hhandled : d.handleTable spec t with
    | error e => simp [GameDriver.handleNext, hhandled, Except.map, bind, Except.bind] at h
    | ok p =>
      obtain ⟨more, d₁⟩ := p
      simp only [List.foldlM_cons, GameDriver.handleNext, hhandled, Except.map] at h
      have hrest : ts.foldlM (GameDriver.handleNext spec) (out ++ more, d₁) = .ok (out', d') := h
      simp only [neverLowers, hhandled, Bool.and_eq_true, Bool.not_eq_true',
        Bool.and_eq_false_iff] at hlower
      obtain ⟨hlowers, hlater⟩ := hlower
      have hts' : ∀ t' ∈ ts, Updates addr P t' := fun t' ht' => hts t' (List.mem_cons_of_mem t ht')
      -- the driver tests again for each table whether the game runs
      cases hrun : d.isRunning spec with
      | true =>
        obtain ⟨hinv₁, hdid₁, -, hsends, htaken⟩ := handleTable_running hget hkind hmask hund hP
          hinv hupdate.op hrun hupdate.fits (hlowers.resolve_left (by simp [hrun])) hhandled
        rw [checkFirstRunning_of_didCache hdid] at hsends htaken
        obtain ⟨hinv', hsends', hmoves⟩ := ih hinv₁ hdid₁ hts' hlater hrest
        refine ⟨hinv', by rw [hsends', sends_append, hsends, sends_nil, List.append_nil], ?_⟩
        generalize hlane : d₁.lane addr = l at htaken
        cases htaken with
        | other hnone =>
          rw [List.filterMap_cons_none hnone, ← hlane]
          exact hmoves
        | @take b hb =>
          rw [List.filterMap_cons_some hb]
          -- the value at the front is taken, and the rest by induction
          have htake := Lane.Moves.take (l := { d.lane addr with
            parked := byteVal b ::
              (ts.filterMap (Body.valueFor addr) ++ (d.lane addr).parked) }) rfl
          have hsame : { d₁.lane addr with
              parked := ts.filterMap (Body.valueFor addr) ++ (d₁.lane addr).parked }
                = ({ d.lane addr with
                  parked := ts.filterMap (Body.valueFor addr) ++ (d.lane addr).parked } :
                    Lane).taking b := by
            rw [hlane]
            unfold Lane.taking
            split_ifs <;> rfl
          rw [hsame] at hmoves
          exact htake.trans hmoves
      | false =>
        -- the game has paused, and the table goes on waiting
        simp only [GameDriver.handleTable, hupdate.op, hrun, Bool.false_eq_true, if_false,
          Except.ok.injEq, Prod.mk.injEq] at hhandled
        obtain ⟨rfl, rfl⟩ := hhandled
        have hinv₁ : OnDriver addr P { d with sleepQueue := d.sleepQueue ++ [t] } := by
          refine ⟨hinv.cached, hinv.due, hinv.filled, fun t' ht' => ?_, hinv.held⟩
          rcases List.mem_append.mp ht' with hold | hnew
          · exact hinv.parked t' hold
          · exact List.mem_singleton.mp hnew ▸ hupdate
        obtain ⟨hinv', hsends', hmoves⟩ := ih hinv₁ hdid hts' hlater hrest
        refine ⟨hinv', by simpa using hsends', ?_⟩
        cases hvalue : t.valueFor addr with
        | none =>
          rw [List.filterMap_cons_none hvalue]
          simpa [GameDriver.lane, hvalue] using hmoves
        | some v =>
          rw [List.filterMap_cons_some hvalue]
          -- the value at the front goes to the end
          have hwait := Lane.Moves.wait (l := { d.lane addr with
            parked := v :: (ts.filterMap (Body.valueFor addr) ++ (d.lane addr).parked) }) rfl
          refine hwait.trans ?_
          simpa [GameDriver.lane, hvalue] using hmoves

/-- A tick of a driver whose game is running. -/
theorem childTick_running (hrun : d.isRunning spec = true) :
    d.childTick spec = ((d.checkFirstRunning spec).2.sleepQueue.foldlM
      (GameDriver.handleNext spec) ((d.checkFirstRunning spec).1,
        { (d.checkFirstRunning spec).2 with sleepQueue := [] })).map fun p =>
      (p.1, { p.2 with mem := (spec.tick.getD id) p.2.mem }) := by
  have hnext : GameDriver.handleNext spec = fun p t =>
      p.2.handleTable spec t >>= fun q => pure (p.1 ++ q.1, q.2) := by
    funext p t
    rw [GameDriver.handleNext]
    cases p.2.handleTable spec t <;> rfl
  rw [GameDriver.childTick, if_pos hrun, hnext]
  show ((d.checkFirstRunning spec).2.sleepQueue.foldlM (fun p t =>
      p.2.handleTable spec t >>= fun q => pure (p.1 ++ q.1, q.2)) ((d.checkFirstRunning spec).1,
        { (d.checkFirstRunning spec).2 with sleepQueue := [] }) >>= fun p => _) = _
  cases (d.checkFirstRunning spec).2.sleepQueue.foldlM (fun p t =>
      p.2.handleTable spec t >>= fun q => pure (p.1 ++ q.1, q.2)) ((d.checkFirstRunning spec).1,
        { (d.checkFirstRunning spec).2 with sleepQueue := [] }) with
  | error e => rfl
  | ok p => cases spec.tick <;> rfl

include hget hkind hmask hund hP in
/-- **A tick**: what waited for the game to run is taken. -/
theorem childTick_does (hinv : OnDriver addr P d)
    (hlower : neverLowers spec addr d.sleepQueue
      { (d.checkFirstRunning spec).2 with sleepQueue := [] } = true)
    (h : d.childTick spec = .ok (out, d')) : Does addr P d out d' := by
  -- a game that does not run leaves the tick with nothing to do
  cases hrun : d.isRunning spec with
  | false =>
    simp only [GameDriver.childTick, hrun, Bool.false_eq_true, if_false, Except.ok.injEq,
      Prod.mk.injEq] at h
    obtain ⟨rfl, rfl⟩ := h
    exact (Keeps.refl addr d).does hinv (by simp)
  | true =>
    obtain ⟨hfirst, hdid, hmem, hqueue⟩ := checkFirstRunning_does hget hkind hund hinv
    rw [childTick_running hrun] at h
    have hinv₁ := hfirst.onDriver
    cases hqueue' : (d.checkFirstRunning spec).2.sleepQueue.foldlM (GameDriver.handleNext spec)
        ((d.checkFirstRunning spec).1,
          { (d.checkFirstRunning spec).2 with sleepQueue := [] }) with
    | error e => simp [hqueue', Except.map] at h
    | ok p =>
      obtain ⟨out₂, d₂⟩ := p
      rw [hqueue', Except.map, Except.ok.injEq, Prod.mk.injEq] at h
      obtain ⟨rfl, rfl⟩ := h
      -- the sleep queue is taken out before its tables are handled
      have hemptied : OnDriver addr P { (d.checkFirstRunning spec).2 with sleepQueue := [] } :=
        ⟨hinv₁.cached, hinv₁.due, hinv₁.filled, fun _ ht => absurd ht List.not_mem_nil, hinv₁.held⟩
      rw [hqueue] at hqueue'
      obtain ⟨hinv₂, hsends, hmoves⟩ := handleAll_moves hget hkind hmask hund hP hemptied hdid
        hinv.parked hlower hqueue'
      have hlane :
          ({ GameDriver.lane addr { (d.checkFirstRunning spec).2 with sleepQueue := [] } with
            parked := d.sleepQueue.filterMap (Body.valueFor addr) ++ (GameDriver.lane addr
            { (d.checkFirstRunning spec).2 with sleepQueue := [] }).parked } : Lane)
              = (d.checkFirstRunning spec).2.lane addr := by
        simp [GameDriver.lane, hqueue]
      rw [hlane] at hmoves
      have hdoes : Does addr P d out₂ d₂ := by
        have hvalues : valuesIn addr out₂ = valuesIn addr (d.checkFirstRunning spec).1 := by
          rw [valuesIn, hsends, valuesIn]
        refine ⟨hinv₂, ?_, by rw [hsends]; exact hfirst.news⟩
        rw [hvalues, ← List.append_nil (valuesIn addr (d.checkFirstRunning spec).1)]
        exact hfirst.moves.trans hmoves
      -- the mode's own `tick` comes last, and leaves the byte alone
      have htick : Keeps addr d₂ { d₂ with mem := (spec.tick.getD id) d₂.mem } := by
        refine ⟨?_, rfl, rfl, rfl, rfl⟩
        cases hspec : spec.tick with
        | none => rfl
        | some f => exact hund.tick f hspec d₂.mem
      simpa using hdoes.trans (htick.does hinv₂ (by simp : ∀ t ∈ sends [], _))

end Sending

/-! ## The game and a resync -/

/-- The game raises the byte; nobody has noticed it yet. -/
theorem OnDriver.raise (hinv : OnDriver addr P d) {b : BitVec 8} (hle : d.mem addr ≤ b)
    (hb : P (byteVal b)) :
    OnDriver addr P { d with mem := update d.mem addr b } ∧
      GameDriver.lane addr { d with mem := update d.mem addr b }
        = { d.lane addr with val := b } := by
  refine ⟨⟨fun k hk => ?_, hinv.due, hinv.filled, hinv.parked, by simpa using hb⟩,
    Lane.ext (by simp [GameDriver.lane]) rfl rfl rfl⟩
  obtain ⟨c, rfl, hc⟩ := hinv.cached k hk
  exact ⟨c, rfl, by simpa using BitVec.le_trans hc hle⟩

/-- The game writes another byte. -/
theorem keeps_mem (ha : a ≠ addr) (b : BitVec 8) :
    Keeps addr d { d with mem := update d.mem a b } :=
  ⟨Function.update_of_ne ha.symm _ _, rfl, rfl, rfl, rfl⟩

/-- The driver forgets what it has sent. -/
theorem OnDriver.resync (hinv : OnDriver addr P d) :
    OnDriver addr P d.resync ∧
      d.resync.lane addr = { d.lane addr with cache := none, queued := [] } :=
  ⟨⟨hinv.cached, fun _ => rfl, fun h => absurd h (by simp [GameDriver.resync]), hinv.parked,
    hinv.held⟩, rfl⟩

end EmuCoop.Fceux
