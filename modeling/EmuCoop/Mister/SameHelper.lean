import EmuCoop.Mister.Helpers

/-!
# The two helpers are alike on requests for something

The shipped helper answers a request for no addresses at once.  The helper of the bridge has no such
case: it takes a request number, writes a header with no addresses and waits for the FPGA.  On all
other requests the two do the same accesses and return the same responses, whatever the DDRAM does.

## Main results

- `handleHelperRequest_ofMemory` : one request that asks for something.
- `helpers_agree_iff` : sequences of requests on which the two are alike.
- `helpers_differ` : a request for nothing.
-/

namespace EmuCoop.Mister

open EmuCoop.Lib

/-- The request is a `read_ranges` with ranges that hold no address. -/
def asksForNothing (intOfText : PyText → Option ℤ) (request : Request) : Bool :=
  request.asks "read_ranges" &&
    match coercePairs intOfText ((PyJson.get request "ranges").getD (.list [])) with
    | .ok ranges => expandRanges ranges = []
    | .error _ => false

/-- The endpoint with the attributes of a `MisterMemory`. -/
def MailboxEndpoint.ofMemory (m : MisterMemory) : MailboxEndpoint where
  reader := { requestId := m.requestId, lastFrame := m.lastFrame }
  mailbox := { sequence := m.writeSeq }
  lastFrame := m.lastFrame

/-- The two files agree on the window. -/
theorem bridgeLayout_eq : bridgeLayout = shippedLayout := rfl

theorem nextWriteSeq_ne_zero (writeSeq : ℕ) : nextWriteSeq writeSeq ≠ 0 := by
  rw [nextWriteSeq]
  split_ifs <;> omega

/-! ## One method -/

namespace MailboxEndpoint

variable (b : Behaviour) (m : MisterMemory)

/-- A read that asks for something. -/
theorem readRanges_ofMemory {ranges : List (ℤ × ℤ)} (hsome : expandRanges ranges ≠ []) :
    (ofMemory m).readRanges b ranges = Prod.map id ofMemory <$> m.readRanges b ranges := by
  simp only [readRanges, SmartCache.readRanges, SmartCache.submitReadRequest, bridgeLayout_eq,
    MisterMemory.readRanges]
  cases hexpand : shippedLayout.expand ranges with
  | error raised => rfl
  | ok addresses =>
    have haddrs : addresses ≠ [] := by
      simp only [Layout.expand] at hexpand
      split_ifs at hexpand
      cases hexpand
      exact hsome
    simp only [if_neg haddrs, SmartCache.readResponse, bridgeLayout_eq, bind_assoc, map_bind,
      pure_bind]
    refine bind_congr fun _ => bind_congr fun rounds => bind_congr fun found => ?_
    cases found with
    | none => rfl
    | some control =>
      simp only [bind_assoc, map_bind, pure_bind]
      exact bind_congr fun snapshot => rfl

/-- A read of one byte asks for something. -/
theorem expandRanges_byte (addr : ℤ) : expandRanges [(addr, 1)] ≠ [] := by
  simp [expandRanges]

theorem readByte_ofMemory (addr : ℤ) :
    (ofMemory m).readByte b addr = Prod.map id ofMemory <$> m.readByte b addr := by
  have hread := readRanges_ofMemory b m (expandRanges_byte addr)
  calc (ofMemory m).readByte b addr
      = (ofMemory m).readRanges b [(addr, 1)] >>= fun x =>
          pure (x.1.map fun values => values.map fun snapshot => lookup snapshot addr, x.2) := by
        simp only [readByte, SmartCache.readByte, readRanges, bind_assoc]
        refine bind_congr fun x => ?_
        obtain ⟨raised | snapshot | snapshot, reader⟩ := x <;> rfl
    _ = Prod.map id ofMemory <$> m.readByte b addr := by
        rw [hread]
        simp only [MisterMemory.readByte, bind_map_left, map_bind]
        refine bind_congr fun x => ?_
        obtain ⟨raised | snapshot | snapshot, reader⟩ := x <;> rfl

theorem writePairs_ofMemory (pairs : List (ℤ × ℤ)) :
    (ofMemory m).writePairs b pairs = Prod.map id ofMemory <$> m.writePairs b true pairs := by
  simp only [writePairs, WriteMailbox.writePairs, WriteMailbox.submitPairs, bridgeLayout_eq,
    MisterMemory.writePairs, if_true]
  cases hvalidate : shippedLayout.validate pairs with
  | error raised => rfl
  | ok checked =>
    by_cases hnone : checked = []
    · simp only [if_pos hnone]
      rfl
    · simp only [if_neg hnone, WriteMailbox.waitForAck, bridgeLayout_eq, bind_assoc, map_bind,
        pure_bind, if_neg (nextWriteSeq_ne_zero _)]
      refine bind_congr fun _ => bind_congr fun rounds => bind_congr fun found => ?_
      cases found <;> rfl

end MailboxEndpoint

/-! ## One request -/

section Request

open MailboxEndpoint

variable (b : Behaviour) (intOfText : PyText → Option ℤ)

/-- **One request that asks for something.** -/
theorem handleHelperRequest_ofMemory {request : Request}
    (hsome : asksForNothing intOfText request = false) (m : MisterMemory) :
    handleHelperRequest b intOfText request (ofMemory m)
      = Prod.map id ofMemory <$> handleRequest b intOfText true request m := by
  simp only [handleHelperRequest, handleRequest]
  split_ifs with hread hbyte hwrite
  · cases hranges : coercePairs intOfText ((PyJson.get request "ranges").getD (.list [])) with
    | error raised => rfl
    | ok ranges =>
      -- The endpoint's own guard against an empty list does not fire.
      have hne : expandRanges ranges ≠ [] := by
        simpa [asksForNothing, hread, hranges] using hsome
      simp only [readRanges_ofMemory b m hne, bind_map_left, map_bind]
      refine bind_congr fun x => ?_
      obtain ⟨raised | snapshot | snapshot, m'⟩ := x <;> rfl
  · cases haddr : integer intOfText ((PyJson.get request "addr").getD (.int 0)) with
    | error raised => rfl
    | ok addr =>
      simp only [readByte_ofMemory, bind_map_left, map_bind]
      refine bind_congr fun x => ?_
      obtain ⟨raised | value | value, m'⟩ := x <;> rfl
  · cases hpairs : coercePairs intOfText ((PyJson.get request "pairs").getD (.list [])) with
    | error raised => rfl
    | ok pairs =>
      simp only [writePairs_ofMemory, bind_map_left, map_bind]
      refine bind_congr fun x => ?_
      obtain ⟨raised | written, m'⟩ := x
      · cases raised <;> rfl
      · cases written <;> rfl
  · rfl

end Request

/-! ## Counting the words -/

def Access.isWrite : Access → Bool
  | .wrote _ _ => true
  | .got _ _ => false

def readWords (ranges : List (ℤ × ℤ)) : ℕ :=
  match shippedLayout.expand ranges with
  | .ok addresses => if addresses = [] then 0 else (addresses.length + 1) / 2 + 1
  | .error _ => 0

def pairWords (pairs : List (ℤ × ℤ)) : ℕ :=
  match shippedLayout.validate pairs with
  | .ok checked => if checked = [] then 0 else checked.length + 1
  | .error _ => 0

/-- The words that the shipped helper writes for a request. -/
def requestWords (intOfText : PyText → Option ℤ) (request : Request) : ℕ :=
  if request.asks "read_ranges" then
    match coercePairs intOfText ((PyJson.get request "ranges").getD (.list [])) with
    | .ok ranges => readWords ranges
    | .error _ => 0
  else if request.asks "read_byte" then
    match integer intOfText ((PyJson.get request "addr").getD (.int 0)) with
    | .ok addr => readWords [(addr, 1)]
    | .error _ => 0
  else if request.asks "write_pairs" then
    match coercePairs intOfText ((PyJson.get request "pairs").getD (.list [])) with
    | .ok pairs => pairWords pairs
    | .error _ => 0
  else 0

section Count

variable {b : Behaviour}

theorem emits_readU64 (offset : ℕ) : Emits Access.isWrite (readU64 b offset) 0 := by
  intro accesses
  simp [readU64, StateT.run, Access.isWrite]

theorem emits_writeU64 (offset value : ℕ) : Emits Access.isWrite (writeU64 offset value) 1 := by
  intro accesses
  simp [writeU64, StateT.run, Access.isWrite]

theorem emits_deadline : Emits Access.isWrite (deadline b) 0 := fun _ => rfl

theorem emits_poll (offset : ℕ) (answers : ℕ → Bool) (rounds : ℕ) :
    Emits Access.isWrite (poll b offset answers rounds) 0 := by
  induction rounds with
  | zero => exact (emits_readU64 offset).bind_quiet fun _ => .pure _
  | succ rounds ih =>
    refine (emits_readU64 offset).bind_quiet fun control => ?_
    split_ifs
    · exact .pure _
    · exact ih

theorem emits_writeRequest (l : Layout) (requestId : ℕ) (addresses : List ℕ) :
    Emits Access.isWrite (l.writeRequest requestId addresses)
      ((addresses.length + 1) / 2 + 1) := by
  have hloop := Emits.forM (List.range ((addresses.length + 1) / 2))
    fun index => emits_writeU64 (l.addrlistValues + index * 8) (addressWord addresses index)
  rw [List.length_range, Nat.mul_one] at hloop
  exact hloop.bind fun _ => emits_writeU64 _ _

theorem emits_readValues (l : Layout) (addresses : List ℕ) :
    Emits Access.isWrite (l.readValues b addresses) 0 :=
  Emits.foldlM (fun _ _ => (emits_readU64 _).bind_quiet fun _ => .pure _) _

theorem emits_writeMailbox (l : Layout) (sequence : ℕ) (checked : List (ℤ × ℤ)) :
    Emits Access.isWrite (l.writeMailbox sequence checked) (checked.length + 1) := by
  have hloop := Emits.forM checked.zipIdx
    fun entry => emits_writeU64 (l.mailboxPair + entry.2 * 8) (pairWord entry.1)
  rw [List.length_zipIdx, Nat.mul_one] at hloop
  exact hloop.bind fun _ => emits_writeU64 _ _

theorem MisterMemory.emits_readRanges (m : MisterMemory) (ranges : List (ℤ × ℤ)) :
    Emits Access.isWrite (m.readRanges b ranges) (readWords ranges) := by
  simp only [MisterMemory.readRanges, readWords]
  cases shippedLayout.expand ranges with
  | error raised => exact .pure _
  | ok addresses =>
    by_cases hnone : addresses = []
    · simp only [if_pos hnone]
      exact .pure _
    · simp only [if_neg hnone]
      refine (emits_writeRequest _ _ _).bind_quiet fun _ => emits_deadline.bind_quiet fun rounds =>
        (emits_poll _ _ rounds).bind_quiet fun found => ?_
      cases found with
      | none => exact .pure _
      | some control => exact (emits_readValues _ _).bind_quiet fun _ => .pure _

theorem MisterMemory.emits_writePairs (m : MisterMemory) (pairs : List (ℤ × ℤ)) :
    Emits Access.isWrite (m.writePairs b true pairs) (pairWords pairs) := by
  simp only [MisterMemory.writePairs, pairWords, if_true]
  cases shippedLayout.validate pairs with
  | error raised => exact .pure _
  | ok checked =>
    by_cases hnone : checked = []
    · simp only [if_pos hnone]
      exact .pure _
    · simp only [if_neg hnone]
      refine (emits_writeMailbox _ _ _).bind_quiet fun _ => emits_deadline.bind_quiet fun rounds =>
        (emits_poll _ _ rounds).bind_quiet fun found => ?_
      cases found <;> exact .pure _

/-- The words that the shipped helper writes for a request. -/
theorem emits_handleRequest (intOfText : PyText → Option ℤ) (request : Request)
    (m : MisterMemory) :
    Emits Access.isWrite (handleRequest b intOfText true request m)
      (requestWords intOfText request) := by
  simp only [handleRequest, requestWords]
  -- a request that cannot be converted writes nothing
  split_ifs
  · cases coercePairs intOfText ((PyJson.get request "ranges").getD (.list [])) with
    | error raised => exact .pure _
    | ok ranges =>
      refine (m.emits_readRanges ranges).bind_quiet fun x => ?_
      obtain ⟨raised | snapshot | snapshot, m'⟩ := x <;> exact .pure _
  · cases integer intOfText ((PyJson.get request "addr").getD (.int 0)) with
    | error raised => exact .pure _
    | ok addr =>
      -- to read a byte is to read a range of one
      have hbyte : Emits Access.isWrite (m.readByte b addr) (readWords [(addr, 1)]) := by
        refine (m.emits_readRanges _).bind_quiet fun x => ?_
        obtain ⟨raised | snapshot | snapshot, m'⟩ := x <;> exact .pure _
      refine hbyte.bind_quiet fun x => ?_
      obtain ⟨raised | value | value, m'⟩ := x <;> exact .pure _
  · cases coercePairs intOfText ((PyJson.get request "pairs").getD (.list [])) with
    | error raised => exact .pure _
    | ok pairs =>
      refine (m.emits_writePairs pairs).bind_quiet fun x => ?_
      obtain ⟨raised | written, m'⟩ := x
      · cases raised <;> exact .pure _
      · cases written <;> exact .pure _
  · exact .pure _

/-- A read request for nothing has a header all the same. -/
theorem SmartCache.emits_readRanges (c : SmartCache) (ranges : List (ℤ × ℤ)) :
    Emits Access.isWrite (c.readRanges b ranges)
      (readWords ranges + if expandRanges ranges = [] then 1 else 0) := by
  -- the request: a word for every two addresses, and the header in any case
  have hsubmit : Emits Access.isWrite (c.submitReadRequest ranges)
      (readWords ranges + if expandRanges ranges = [] then 1 else 0) := by
    simp only [submitReadRequest, bridgeLayout_eq, readWords]
    cases hexpand : shippedLayout.expand ranges with
    | error raised =>
      have hne : expandRanges ranges ≠ [] := by
        intro hnone
        simp [Layout.expand, hnone] at hexpand
      simp only [if_neg hne]
      exact .pure _
    | ok addresses =>
      have haddrs : addresses = expandRanges ranges := by
        simp only [Layout.expand] at hexpand
        split_ifs at hexpand
        cases hexpand
        rfl
      rw [← haddrs]
      by_cases hnone : addresses = []
      · subst hnone
        exact (emits_writeRequest shippedLayout _ []).bind_quiet fun _ => .pure _
      · simp only [if_neg hnone]
        exact (emits_writeRequest _ _ _).bind_quiet fun _ => .pure _
  refine hsubmit.bind_quiet fun x => ?_
  obtain ⟨raised | request, c'⟩ := x
  · exact .pure _
  -- the answer is only read
  · have hresponse : Emits Access.isWrite (c'.readResponse b request) 0 := by
      refine emits_deadline.bind_quiet fun rounds => (emits_poll _ _ rounds).bind_quiet fun found =>
        ?_
      cases found with
      | none => exact .pure _
      | some control => exact (emits_readValues _ _).bind_quiet fun _ => .pure _
    exact hresponse.bind_quiet fun _ => .pure _

theorem MailboxEndpoint.emits_readRanges (e : MailboxEndpoint) (ranges : List (ℤ × ℤ)) :
    Emits Access.isWrite (e.readRanges b ranges)
      (readWords ranges + if expandRanges ranges = [] then 1 else 0) := by
  refine (e.reader.emits_readRanges ranges).bind_quiet fun x => ?_
  obtain ⟨raised | snapshot, reader⟩ := x <;> exact .pure _

theorem MailboxEndpoint.emits_readByte (e : MailboxEndpoint) (addr : ℤ) :
    Emits Access.isWrite (e.readByte b addr) (readWords [(addr, 1)]) := by
  have hread := e.reader.emits_readRanges (b := b) [(addr, 1)]
  rw [if_neg (expandRanges_byte addr), Nat.add_zero] at hread
  have hbyte : Emits Access.isWrite (e.reader.readByte b addr) (readWords [(addr, 1)]) := by
    refine hread.bind_quiet fun x => ?_
    obtain ⟨raised | snapshot | snapshot, reader⟩ := x <;> exact .pure _
  refine hbyte.bind_quiet fun x => ?_
  obtain ⟨raised | value, reader⟩ := x <;> exact .pure _

theorem MailboxEndpoint.emits_writePairs (e : MailboxEndpoint) (pairs : List (ℤ × ℤ)) :
    Emits Access.isWrite (e.writePairs b pairs) (pairWords pairs) := by
  have hsubmit : Emits Access.isWrite (e.mailbox.submitPairs pairs) (pairWords pairs) := by
    simp only [WriteMailbox.submitPairs, bridgeLayout_eq, pairWords]
    cases shippedLayout.validate pairs with
    | error raised => exact .pure _
    | ok checked =>
      by_cases hnone : checked = []
      · simp only [if_pos hnone]
        exact .pure _
      · simp only [if_neg hnone]
        exact (emits_writeMailbox _ _ _).bind_quiet fun _ => .pure _
  have hwait (sequence : ℕ) : Emits Access.isWrite (WriteMailbox.waitForAck b sequence) 0 := by
    rw [WriteMailbox.waitForAck]
    split_ifs
    · exact .pure _
    · refine emits_deadline.bind_quiet fun rounds => (emits_poll _ _ rounds).bind_quiet fun found =>
      ?_
      cases found <;> exact .pure _
  have hpairs : Emits Access.isWrite (e.mailbox.writePairs b pairs) (pairWords pairs) := by
    refine hsubmit.bind_quiet fun x => ?_
    obtain ⟨raised | sequence, mailbox⟩ := x
    · exact .pure _
    · exact (hwait sequence).bind_quiet fun _ => .pure _
  exact hpairs.bind_quiet fun _ => .pure _

/-- The words that the helper of the bridge writes for a request. -/
theorem emits_handleHelperRequest (intOfText : PyText → Option ℤ) (request : Request)
    (e : MailboxEndpoint) :
    Emits Access.isWrite (handleHelperRequest b intOfText request e)
      (requestWords intOfText request + if asksForNothing intOfText request then 1 else 0) := by
  simp only [handleHelperRequest, requestWords]
  by_cases hread : request.asks "read_ranges"
  · simp only [if_pos hread]
    cases hranges : coercePairs intOfText ((PyJson.get request "ranges").getD (.list [])) with
    | error raised =>
      -- a request that cannot be read writes nothing
      have hsome : asksForNothing intOfText request = false := by
        simp [asksForNothing, hranges]
      rw [hsome]
      exact .pure _
    | ok ranges =>
      -- a request for no address is the one that writes a word too many
      have hnothing : asksForNothing intOfText request = decide (expandRanges ranges = []) := by
        simp [asksForNothing, hread, hranges]
      simp only [hnothing, decide_eq_true_eq]
      refine (e.emits_readRanges ranges).bind_quiet fun x => ?_
      obtain ⟨raised | snapshot | snapshot, e'⟩ := x <;> exact .pure _
  · have hsome : asksForNothing intOfText request = false := by
      simp [asksForNothing, hread]
    simp only [if_neg hread, hsome, Bool.false_eq_true, if_false, Nat.add_zero]
    split_ifs
    · cases integer intOfText ((PyJson.get request "addr").getD (.int 0)) with
      | error raised => exact .pure _
      | ok addr =>
        refine (e.emits_readByte addr).bind_quiet fun x => ?_
        obtain ⟨raised | value | value, e'⟩ := x <;> exact .pure _
    · cases coercePairs intOfText ((PyJson.get request "pairs").getD (.list [])) with
      | error raised => exact .pure _
      | ok pairs =>
        refine (e.emits_writePairs pairs).bind_quiet fun x => ?_
        obtain ⟨raised | written, e'⟩ := x
        · cases raised <;> exact .pure _
        · cases written <;> exact .pure _
    · exact .pure _

end Count

/-! ## Sequences of requests -/

/-- The words written, with their offsets. -/
def written (accesses : List Access) : List (ℕ × ℕ) :=
  accesses.filterMap fun
    | .wrote offset word => some (offset, word)
    | .got _ _ => none

theorem length_written (accesses : List Access) :
    (written accesses).length = accesses.countP Access.isWrite := by
  induction accesses with
  | nil => rfl
  | cons access accesses ih =>
    cases access with
    | wrote offset word =>
      rw [List.countP_cons_of_pos rfl, ← ih]
      rfl
    | got offset word =>
      rw [List.countP_cons_of_neg (by simp [Access.isWrite]), ← ih]
      rfl

/-- The shipped helper, started with `--enable-writes`: its responses and what it writes. -/
def shippedHelper (b : Behaviour) (intOfText : PyText → Option ℤ) (requests : List Request) :
    List (Except HelperError PyJson) × List (ℕ × ℕ) :=
  let run := (serve (handleRequest b intOfText true) requests {}).run []
  (run.1.1, written run.2)

/-- The helper of the bridge: its responses and what it writes. -/
def bridgeHelper (b : Behaviour) (intOfText : PyText → Option ℤ) (requests : List Request) :
    List (Except HelperError PyJson) × List (ℕ × ℕ) :=
  let run := (serve (handleHelperRequest b intOfText) requests {}).run []
  (run.1.1, written run.2)

/-- **The two helpers are equivalent on requests for something, and on no others**, whatever the
words read and the waits are: on a sequence of requests they write the same words and return the
same responses, or raise alike, if and only if no `read_ranges` in it asks for no address at all. -/
theorem helpers_agree_iff (b : Behaviour) (intOfText : PyText → Option ℤ)
    (requests : List Request) :
    bridgeHelper b intOfText requests = shippedHelper b intOfText requests ↔
      ∀ request ∈ requests, asksForNothing intOfText request = false := by
  constructor
  · intro hsame
    -- each request for nothing has a header more
    have hbridge := Emits.serve (emits_handleHelperRequest (b := b) intOfText) requests {} []
    have hshipped := Emits.serve (emits_handleRequest (b := b) intOfText) requests {} []
    have hlen : (bridgeHelper b intOfText requests).2.length
        = (shippedHelper b intOfText requests).2.length := by rw [hsame]
    simp only [bridgeHelper, shippedHelper, length_written, hbridge, hshipped, List.countP_nil,
      Nat.zero_add, List.sum_map_add] at hlen
    have hnone : ((requests.map fun request =>
        if asksForNothing intOfText request then 1 else 0).sum) = 0 := by omega
    intro request hmem
    have hzero := List.sum_eq_zero_iff_forall_eq_nat.mp hnone _ (List.mem_map_of_mem hmem)
    by_contra hnothing
    simp [hnothing] at hzero
  · intro hsome
    have hserve := serve_map MailboxEndpoint.ofMemory
      (fun request hmem m => handleHelperRequest_ofMemory b intOfText (hsome request hmem) m) {}
    have hrun : (serve (handleHelperRequest b intOfText) requests {}).run []
        = (Prod.map id MailboxEndpoint.ofMemory <$>
            serve (handleRequest b intOfText true) requests {}).run [] := by
      rw [← hserve]
      rfl
    simp only [bridgeHelper, shippedHelper, hrun]
    rfl

/-- The FPGA does not answer, and no wait goes into a second round. -/
def silent : Behaviour where
  word _ _ := 0
  rounds _ := 0

/-- `{"op": "read_ranges", "ranges": []}`. -/
def readsNothing : Request :=
  [(text "op", .str (text "read_ranges")), (text "ranges", .list [])]

/-- A request for nothing: the shipped helper answers without an access, and the helper of the
bridge writes a header, waits in vain and reports a busy mirror. -/
theorem helpers_differ :
    shippedHelper silent (fun _ => none) [readsNothing] = ([.ok (valuesResponse 0 .empty)], []) ∧
      bridgeHelper silent (fun _ => none) [readsNothing]
        = ([.ok (busyResponse 0)], [(0x40000, 0x100000000)]) ∧
      bridgeHelper silent (fun _ => none) [readsNothing]
        ≠ shippedHelper silent (fun _ => none) [readsNothing] := by
  have hread : readsNothing.asks "read_ranges" = true := by decide
  have hranges : coercePairs (fun _ => none) ((PyJson.get readsNothing "ranges").getD (.list []))
      = .ok [] := by rfl
  have hshipped : shippedHelper silent (fun _ => none) [readsNothing]
      = ([.ok (valuesResponse 0 .empty)], []) := by
    simp only [shippedHelper, serve, handleRequest, hread, hranges, if_true]
    rfl
  have hbridge : bridgeHelper silent (fun _ => none) [readsNothing]
      = ([.ok (busyResponse 0)], [(0x40000, 0x100000000)]) := by
    simp only [bridgeHelper, serve, handleHelperRequest, hread, hranges, if_true]
    rfl
  refine ⟨hshipped, hbridge, ?_⟩
  rw [hshipped, hbridge]
  simp

end EmuCoop.Mister
