import Mathlib.Tactic.IntervalCases
import EmuCoop.Bridge.CcClient

/-!
# When the cart's responses decode

A response is a header, the id and the action of the request, and the values.  The client strips
status pairs off the whole stream before it looks for the header, and the values are part of that
stream: two bytes of a response that look like a status pair are stripped as well, and then there
are too few values for the response to be found.

## Main results

- `response_decodes_iff` : however a response arrives, in whatever chunks and between whatever
  status pairs, the client returns exactly its values if and only if no two neighbours among the
  action and the values look like a status pair.  For `read_byte` this means that the byte is any
  but `0xA5`.
- `byte_0xA5_not_read` : a response that is never found.
-/

namespace EmuCoop.Bridge

/-! ## Stripping -/

/-- Whether two neighbours look like a status pair. -/
def hasStatusPair : List UInt8 → Bool
  | a :: b :: rest => isStatusPair a b || hasStatusPair (b :: rest)
  | _ => false

/-- Complete status pairs, as the firmware sends them: the first byte is `0x04` or `0x00`. -/
def statusPairs (firsts : List Bool) : List UInt8 :=
  firsts.flatMap fun first => [if first then 0x04 else 0x00, 0xA5]

/-- A stream without a status pair is left alone. -/
theorem strip_of_clean {bs : List UInt8} (h : hasStatusPair bs = false) :
    stripStatusPairs bs = bs := by
  fun_induction stripStatusPairs bs with
  | case1 a b rest hpair ih => simp [hasStatusPair, hpair] at h
  | case2 a b rest hpair ih =>
    rw [ih]
    simpa [hasStatusPair, hpair] using h
  | case3 b => rfl
  | case4 => rfl

/-- Stripping only removes. -/
theorem length_strip_le (bs : List UInt8) : (stripStatusPairs bs).length ≤ bs.length := by
  fun_induction stripStatusPairs bs with
  | case1 a b rest hpair ih => simp only [List.length_cons]; omega
  | case2 a b rest hpair ih => simpa using ih
  | case3 b => simp
  | case4 => simp

/-- A status pair costs two bytes. -/
theorem length_strip_of_pair {bs : List UInt8} (h : hasStatusPair bs = true) :
    (stripStatusPairs bs).length + 2 ≤ bs.length := by
  fun_induction stripStatusPairs bs with
  | case1 a b rest hpair ih =>
    have hle := length_strip_le rest
    simp only [List.length_cons]
    omega
  | case2 a b rest hpair ih =>
    have hrest : hasStatusPair (b :: rest) = true := by simpa [hasStatusPair, hpair] using h
    have hle := ih hrest
    simp only [List.length_cons] at hle ⊢
    omega
  | case3 b => simp [hasStatusPair] at h
  | case4 => simp [hasStatusPair] at h

/-- Two streams are stripped apart from each other, unless the second starts with the second half
of a pair. -/
theorem strip_append (as : List UInt8) {bs : List UInt8} (h : bs.head? ≠ some 0xA5) :
    stripStatusPairs (as ++ bs) = stripStatusPairs as ++ stripStatusPairs bs := by
  fun_induction stripStatusPairs as with
  | case1 a b rest hpair ih => simpa [stripStatusPairs, hpair] using ih
  | case2 a b rest hpair ih => simpa [stripStatusPairs, hpair] using ih
  | case3 b =>
    cases bs with
    | nil => simp [stripStatusPairs]
    | cons c bs =>
      have hpair : isStatusPair b c = false := by
        have hc : c ≠ 0xA5 := by simpa using h
        simp [isStatusPair, hc]
      simp [stripStatusPairs, hpair]
  | case4 => rfl

/-- The start of a stream without a status pair has none either. -/
theorem hasStatusPair_of_append {as bs : List UInt8} (h : hasStatusPair (as ++ bs) = false) :
    hasStatusPair as = false := by
  fun_induction hasStatusPair as with
  | case1 a b rest ih =>
    obtain ⟨hpair, hrest⟩ : isStatusPair a b = false ∧ hasStatusPair (b :: rest ++ bs) = false := by
      simpa [hasStatusPair] using h
    simp [hpair, ih hrest]
  | case2 as => rfl

/-- Status pairs are stripped off the front. -/
theorem strip_statusPairs_append (firsts : List Bool) (bs : List UInt8) :
    stripStatusPairs (statusPairs firsts ++ bs) = stripStatusPairs bs := by
  induction firsts with
  | nil => rfl
  | cons first firsts ih =>
    have hpair : isStatusPair (if first then 0x04 else 0x00) 0xA5 = true := by
      cases first <;> rfl
    show stripStatusPairs ((if first then 0x04 else 0x00) :: 0xA5 ::
      (statusPairs firsts ++ bs)) = _
    rw [stripStatusPairs, if_pos hpair, ih]

/-- Nothing is left of status pairs. -/
@[simp] theorem strip_statusPairs (firsts : List Bool) :
    stripStatusPairs (statusPairs firsts) = [] := by
  simpa [stripStatusPairs] using strip_statusPairs_append firsts []

/-- Status pairs do not start with the second half of one. -/
theorem head?_statusPairs (firsts : List Bool) : (statusPairs firsts).head? ≠ some 0xA5 := by
  cases firsts with
  | nil => simp [statusPairs]
  | cons first firsts => cases first <;> simp [statusPairs]

/-- The start of a stream is stripped to at most one byte more than the stream: the first half of a
pair that is still to come. -/
theorem length_strip_prefix (as bs : List UInt8) :
    (stripStatusPairs as).length ≤ (stripStatusPairs (as ++ bs)).length + 1 := by
  fun_induction stripStatusPairs as with
  | case1 a b rest hpair ih => simpa [stripStatusPairs, hpair] using ih
  | case2 a b rest hpair ih =>
    have hcons : stripStatusPairs (a :: b :: rest ++ bs)
        = a :: stripStatusPairs (b :: rest ++ bs) := by simp [stripStatusPairs, hpair]
    rw [hcons]
    simpa using ih
  | case3 b => simp
  | case4 => simp

/-! ## Searching -/

/-- The documented start of a response, up to the id. -/
def header (size mid : UInt8) : List UInt8 := [0x2B, 0xD4, 0x22, 0xDD, size, 0x00, 0x20, mid]

def response (size mid action : UInt8) (values : List UInt8) : List UInt8 :=
  header size mid ++ action :: values

/-- The first number below a bound at which a function has a value. -/
theorem findSome?_range {α : Type} {f : ℕ → Option α} {n i : ℕ} {a : α} (hi : i < n)
    (hat : f i = some a) (hbefore : ∀ j < i, f j = none) :
    (List.range n).findSome? f = some a := by
  obtain ⟨k, rfl⟩ := Nat.exists_eq_add_of_lt hi
  have hnone : (List.range i).findSome? f = none :=
    List.findSome?_eq_none_iff.mpr fun j hj => hbefore j (List.mem_range.mp hj)
  rw [show i + k + 1 = i + 1 + k by omega, List.range_add, List.range_succ,
    List.findSome?_append, List.findSome?_append, hnone]
  simp [hat]

/-- The end of a response header at a place of the stream, as `poll_response` looks for it. -/
def CCClient.StartsAt (client : CCClient) (bs : List UInt8) (i : ℕ) : Prop :=
  bs[i]? = some 0x20 ∧ bs[i + 1]? = some client.expectedMid ∧
    (bs[i + 2]? = some client.expectedAction ∨ bs[i + 2]? = some 0x00)

instance (client : CCClient) (bs : List UInt8) (i : ℕ) : Decidable (client.StartsAt bs i) :=
  inferInstanceAs (Decidable (_ ∧ _ ∧ (_ ∨ _)))

section Search

variable {client : CCClient} {size : UInt8} {filt rest : List UInt8}

/-- A response is read where a header ends with enough bytes behind it. -/
theorem responseAt_eq_some_iff {i : ℕ} {result : List UInt8} :
    client.responseAt filt i = some result ↔
      client.StartsAt filt i ∧ i + 3 + client.expectedValues ≤ filt.length ∧
        (filt.drop (i + 3)).take client.expectedValues = result := by
  simp only [CCClient.responseAt, CCClient.StartsAt]
  constructor
  · intro h
    split_ifs at h with hat
    exact ⟨⟨hat.1, hat.2.1, hat.2.2.1⟩, hat.2.2.2, by simpa using h⟩
  · rintro ⟨⟨h0, h1, h2⟩, hlen, rfl⟩
    exact if_pos ⟨h0, h1, h2, hlen⟩

/-- A header that ends within the start of a stream ends there in the whole stream. -/
theorem CCClient.StartsAt.mono {as bs : List UInt8} {i : ℕ} (h : client.StartsAt as i)
    (hpre : as <+: bs) : client.StartsAt bs i := by
  have hbyte : ∀ (j : ℕ) (b : UInt8), as[j]? = some b → bs[j]? = some b := by
    intro j b hb
    have hj : j < as.length := (List.getElem?_eq_some_iff.mp hb).1
    obtain ⟨more, rfl⟩ := hpre
    rw [List.getElem?_append_left hj, hb]
  obtain ⟨h0, h1, h2⟩ := h
  exact ⟨hbyte _ _ h0, hbyte _ _ h1, h2.imp (hbyte _ _) (hbyte _ _)⟩

/-- No header ends before its own end: an id is never zero. -/
theorem not_startsAt_header (hmid : client.expectedMid ≠ 0) {mid : UInt8} {i : ℕ} (hi : i < 6) :
    ¬ client.StartsAt (header size mid ++ rest) i := by
  rintro ⟨h0, h1, _⟩
  -- only the size byte can be taken for the end of a header, and a zero follows it
  interval_cases i <;> simp [header] at h0 h1
  exact hmid h1.symm

/-- No response is found before the end of the header. -/
theorem responseAt_header (hmid : client.expectedMid ≠ 0)
    (hfilt : filt <+: header size client.expectedMid ++ rest) {i : ℕ} (hi : i < 6) :
    client.responseAt filt i = none := by
  by_contra hsome
  obtain ⟨result, hresult⟩ := Option.ne_none_iff_exists'.mp hsome
  have hstart := (responseAt_eq_some_iff.mp hresult).1
  exact not_startsAt_header hmid hi (hstart.mono hfilt)

/-- A stream that is too short for the values holds no response. -/
theorem findResponse_short (hmid : client.expectedMid ≠ 0)
    (hfilt : filt <+: header size client.expectedMid ++ rest)
    (hshort : filt.length ≤ 8 + client.expectedValues) : client.findResponse filt = none := by
  refine List.findSome?_eq_none_iff.mpr fun i _ => ?_
  by_cases hi : i < 6
  · exact responseAt_header hmid hfilt hi
  · refine if_neg fun ⟨_, _, _, hlen⟩ => ?_
    omega

/-- A whole response is found. -/
theorem findResponse_whole (hmid : client.expectedMid ≠ 0) {values more : List UInt8}
    (hvalues : values.length = client.expectedValues) (hpos : 1 ≤ client.expectedValues) :
    client.findResponse
      (header size client.expectedMid ++ (client.expectedAction :: values ++ more))
      = some values := by
  refine findSome?_range (i := 6) ?_ ?_ fun j hj => ?_
  · simp [header]
    omega
  · have hlen : 6 + 3 + client.expectedValues ≤
        (header size client.expectedMid ++ (client.expectedAction :: values ++ more)).length := by
      simp [header]
      omega
    rw [CCClient.responseAt, if_pos ⟨rfl, rfl, .inl rfl, hlen⟩]
    simp [header, ← hvalues]
  · exact responseAt_header hmid (List.prefix_refl _) hj

end Search

/-! ## Arrivals -/

section Arrivals

variable {client : CCClient}

/-- What is returned was found in some start of the stream. -/
theorem exists_of_pollResponse {arrivals : List (List UInt8)} {result : List UInt8}
    (h : (client.pollResponse arrivals).1 = some result) :
    ∃ bs, bs <+: client.rxBuf ++ arrivals.flatten ∧
      client.findResponse (stripStatusPairs bs) = some result := by
  induction arrivals generalizing client with
  | nil => simp [CCClient.pollResponse] at h
  | cons chunk arrivals ih =>
    rw [CCClient.pollResponse] at h
    cases hnow : client.findResponse (stripStatusPairs (client.rxBuf ++ chunk)) with
    | some found =>
      have hfind : CCClient.findResponse { client with rxBuf := client.rxBuf ++ chunk }
          (stripStatusPairs (client.rxBuf ++ chunk)) = some found := hnow
      simp only [hfind, Option.some.injEq] at h
      exact ⟨_, ⟨arrivals.flatten, by simp⟩, hnow.trans (congrArg some h)⟩
    | none =>
      have hfind : CCClient.findResponse { client with rxBuf := client.rxBuf ++ chunk }
          (stripStatusPairs (client.rxBuf ++ chunk)) = none := hnow
      simp only [hfind] at h
      obtain ⟨bs, hbs, hfound⟩ := ih h
      exact ⟨bs, by simpa using hbs, hfound⟩

/-- Nothing is returned when no start of the stream holds a response. -/
theorem pollResponse_eq_none {arrivals : List (List UInt8)}
    (h : ∀ bs, bs <+: client.rxBuf ++ arrivals.flatten →
      client.findResponse (stripStatusPairs bs) = none) :
    (client.pollResponse arrivals).1 = none := by
  by_contra hsome
  obtain ⟨result, hresult⟩ := Option.ne_none_iff_exists'.mp hsome
  obtain ⟨bs, hbs, hfound⟩ := exists_of_pollResponse hresult
  simp [h bs hbs] at hfound

/-- The values are returned when no start of the stream holds another response and the whole stream
holds this one. -/
theorem pollResponse_eq_some {arrivals : List (List UInt8)} {values : List UInt8}
    (h : ∀ bs, bs <+: client.rxBuf ++ arrivals.flatten →
      client.findResponse (stripStatusPairs bs) = none ∨
      client.findResponse (stripStatusPairs bs) = some values)
    (hbefore : client.findResponse (stripStatusPairs client.rxBuf) = none)
    (hend : client.findResponse (stripStatusPairs (client.rxBuf ++ arrivals.flatten))
      = some values) : (client.pollResponse arrivals).1 = some values := by
  induction arrivals generalizing client with
  | nil => simp [hbefore] at hend
  | cons chunk arrivals ih =>
    rw [CCClient.pollResponse]
    rcases h (client.rxBuf ++ chunk) ⟨arrivals.flatten, by simp⟩ with hnow | hnow
    · have hfind : CCClient.findResponse { client with rxBuf := client.rxBuf ++ chunk }
          (stripStatusPairs (client.rxBuf ++ chunk)) = none := hnow
      simp only [hfind]
      have hrest : client.findResponse
          (stripStatusPairs (client.rxBuf ++ chunk ++ arrivals.flatten)) = some values := by
        simpa using hend
      exact ih (fun bs hbs => h bs (by simpa using hbs)) hnow hrest
    · have hfind : CCClient.findResponse { client with rxBuf := client.rxBuf ++ chunk }
          (stripStatusPairs (client.rxBuf ++ chunk)) = some values := hnow
      simp only [hfind]

end Arrivals

/-- A start of two streams lies in the first or reaches into the second. -/
theorem prefix_append_cases {α : Type} {as bs cs : List α} (h : cs <+: as ++ bs) :
    cs <+: as ∨ ∃ part, part <+: bs ∧ cs = as ++ part := by
  rcases List.prefix_or_prefix_of_prefix h (List.prefix_append as bs) with hfirst | ⟨part, rfl⟩
  · exact .inl hfirst
  · exact .inr ⟨part, (List.prefix_append_right_inj as).mp h, rfl⟩

/-- A start of a stream has its first byte, or none. -/
theorem head?_of_isPrefixOf {as bs : List UInt8} {b : UInt8} (h : as <+: bs)
    (hb : bs.head? ≠ some b) : as.head? ≠ some b := by
  obtain ⟨more, rfl⟩ := h
  cases as with
  | nil => simp
  | cons a as => simpa using hb

/-- The header has no status pair. -/
theorem hasStatusPair_header (size mid : UInt8) : hasStatusPair (header size mid) = false := by
  simp [header, hasStatusPair, isStatusPair]

/-- **What is left of a part of the stream**: at most one byte of the pairs before the response, a
start of the header, or the header with what is left of a start of the rest. -/
theorem strip_of_prefix {before : List Bool} {size mid : UInt8} {tail bs : List UInt8}
    (htail : tail.head? ≠ some 0xA5)
    (hbs : bs <+: statusPairs before ++ (header size mid ++ tail)) :
    (stripStatusPairs bs).length ≤ 1 ∨ stripStatusPairs bs <+: header size mid ∨
    ∃ part, part <+: tail ∧ stripStatusPairs bs = header size mid ++ stripStatusPairs part := by
  rcases prefix_append_cases hbs with ⟨more, hmore⟩ | ⟨bs', hbs', rfl⟩
  · have hle := length_strip_prefix bs more
    rw [hmore, strip_statusPairs] at hle
    exact .inl hle
  · rw [strip_statusPairs_append]
    rcases prefix_append_cases hbs' with ⟨more, hmore⟩ | ⟨part, hpart, rfl⟩
    · have hclean : hasStatusPair bs' = false :=
        hasStatusPair_of_append (hmore ▸ hasStatusPair_header size mid)
      rw [strip_of_clean hclean]
      exact .inr (.inl ⟨more, hmore⟩)
    · rw [strip_append _ (head?_of_isPrefixOf hpart htail),
        strip_of_clean (hasStatusPair_header size mid)]
      exact .inr (.inr ⟨part, hpart, rfl⟩)

section Stream

variable {client : CCClient} {before after : List Bool} {size : UInt8} {values bs : List UInt8}

/-- A part of a stream that is stripped to less than a response holds none. -/
theorem findResponse_part (hmid : client.expectedMid ≠ 0) {tail : List UInt8}
    (htail : tail.head? ≠ some 0xA5)
    (hbs : bs <+: statusPairs before ++ (header size client.expectedMid ++ tail))
    (hshort : ∀ part, part <+: tail →
      stripStatusPairs bs = header size client.expectedMid ++ stripStatusPairs part →
      (stripStatusPairs part).length ≤ client.expectedValues) :
    client.findResponse (stripStatusPairs bs) = none := by
  rcases strip_of_prefix htail hbs with hone | hheader | ⟨part, hpart, hstrip⟩
  · have hrange : (stripStatusPairs bs).length - 3 = 0 := by omega
    simp [CCClient.findResponse, hrange]
  · refine findResponse_short hmid (hheader.trans (List.prefix_append _ [])) ?_
    have hle := hheader.length_le
    simp only [header, List.length_cons, List.length_nil] at hle
    omega
  · rw [hstrip]
    refine findResponse_short hmid (List.prefix_refl _) ?_
    have hle := hshort part hpart hstrip
    simp only [header, List.length_append, List.length_cons, List.length_nil]
    omega

/-- No part of the stream of a response with a status pair in it holds a response. -/
theorem findResponse_dirty (hmid : client.expectedMid ≠ 0) (haction : client.expectedAction ≠ 0xA5)
    (hvalues : values.length = client.expectedValues)
    (hpair : hasStatusPair (client.expectedAction :: values) = true)
    (hbs : bs <+: statusPairs before ++ (header size client.expectedMid ++
      (client.expectedAction :: values ++ statusPairs after))) :
    client.findResponse (stripStatusPairs bs) = none := by
  refine findResponse_part hmid (by simpa using haction) hbs fun part ⟨more, hmore⟩ _ => ?_
  -- the pair costs two bytes, and the first half of a pair behind the response adds one
  have hpart := length_strip_prefix part more
  have hlost := length_strip_of_pair hpair
  rw [hmore, strip_append _ (head?_statusPairs after), strip_statusPairs, List.append_nil] at hpart
  rw [List.length_cons, hvalues] at hlost
  omega

/-- Every part of the stream of a response without a status pair holds this response or none. -/
theorem findResponse_clean (hmid : client.expectedMid ≠ 0) (haction : client.expectedAction ≠ 0xA5)
    (hvalues : values.length = client.expectedValues) (hpos : 1 ≤ client.expectedValues)
    (hclean : hasStatusPair (client.expectedAction :: values) = false)
    (hbs : bs <+: statusPairs before ++ (header size client.expectedMid ++
      (client.expectedAction :: values ++ statusPairs after))) :
    client.findResponse (stripStatusPairs bs) = none ∨
    client.findResponse (stripStatusPairs bs) = some values := by
  by_cases hwhole : ∃ more, more.head? ≠ some 0xA5 ∧ stripStatusPairs bs =
      header size client.expectedMid ++ stripStatusPairs (client.expectedAction :: values ++ more)
  · obtain ⟨more, hmore, hstrip⟩ := hwhole
    rw [hstrip, strip_append _ hmore, strip_of_clean hclean]
    exact .inr (findResponse_whole hmid hvalues hpos)
  · refine .inl (findResponse_part hmid (by simpa using haction) hbs fun part hpart hstrip => ?_)
    rcases prefix_append_cases hpart with ⟨more, hmore⟩ | ⟨more, hmore, rfl⟩
    · rw [strip_of_clean (hasStatusPair_of_append (hmore ▸ hclean))]
      have hlen := congrArg List.length hmore
      cases more with
      | nil => exact absurd ⟨[], by simp, by simpa [← hmore] using hstrip⟩ hwhole
      | cons b more =>
        simp only [List.length_append, List.length_cons] at hlen
        omega
    · exact absurd ⟨more, head?_of_isPrefixOf hmore (head?_statusPairs after), hstrip⟩ hwhole

end Stream

/-! ## Requests and their responses -/

inductive ReadRequest where
  | addrs (list : List ℤ)
  | array (base : ℤ) (length : ℕ)

namespace ReadRequest

def send : ReadRequest → CCClient → Except String Unit × CCClient
  | .addrs list => CCClient.sendReadAddrs list
  | .array base length => CCClient.sendReadArray base length

def action : ReadRequest → UInt8
  | .addrs _ => 0x00
  | .array _ _ => 0x01

def count : ReadRequest → ℕ
  | .addrs list => list.length
  | .array _ length => length

end ReadRequest

/-- An id is never zero. -/
theorem nextMid_ne_zero (client : CCClient) : client.nextMid.1 ≠ 0 := by
  intro h
  have hnat := congrArg UInt8.toNat h
  simp only [CCClient.nextMid, UInt8.toNat_ofNat', UInt8.toNat_zero] at hnat
  split_ifs at hnat
  · omega

/-- What a request that was sent leaves in the client. -/
theorem sendRead_ok {client client' : CCClient} {action : UInt8}
    {payload : Except String (List UInt8)} {count : ℕ}
    (h : client.sendRead action payload count = (.ok (), client')) :
    client'.expectedMid ≠ 0 ∧ client'.expectedAction = action ∧
      client'.expectedValues = count ∧ client'.rxBuf = client.rxBuf := by
  unfold CCClient.sendRead CCClient.sendFrame at h
  cases hpayload : payload with
  | error e => simp [hpayload] at h
  | ok payload =>
    cases hframe : makeCcFrame client.nextMid.1 action payload with
    | error e => simp [hpayload, hframe] at h
    | ok frame =>
      simp only [hpayload, hframe, Prod.mk.injEq, true_and] at h
      subst h
      exact ⟨nextMid_ne_zero client, rfl, rfl, rfl⟩

/-- The same for a request of either kind. -/
theorem ReadRequest.send_ok {request : ReadRequest} {client client' : CCClient}
    (h : request.send client = (.ok (), client')) :
    client'.expectedMid ≠ 0 ∧ client'.expectedAction = request.action ∧
      client'.expectedValues = request.count ∧ client'.rxBuf = client.rxBuf := by
  cases request with
  | addrs list => exact sendRead_ok h
  | array base length =>
    have hread : client.sendRead 0x01 (.ok (UInt8.ofNat length :: addrBytes base)) length
        = (.ok (), client') := h
    exact sendRead_ok hread

/-- A response without a status pair is returned, one with a pair never. -/
theorem pollResponse_eq {client : CCClient} {before after : List Bool} {size : UInt8}
    {values : List UInt8} {arrivals : List (List UInt8)}
    (hrx : client.rxBuf = []) (hmid : client.expectedMid ≠ 0)
    (haction : client.expectedAction ≠ 0xA5) (hvalues : values.length = client.expectedValues)
    (hpos : 1 ≤ client.expectedValues)
    (harrivals : arrivals.flatten = statusPairs before ++
      response size client.expectedMid client.expectedAction values ++ statusPairs after) :
    (client.pollResponse arrivals).1
      = if hasStatusPair (client.expectedAction :: values) then none else some values := by
  have hstream : client.rxBuf ++ arrivals.flatten = statusPairs before ++
      (header size client.expectedMid ++
        (client.expectedAction :: values ++ statusPairs after)) := by
    simp [hrx, harrivals, response]
  cases hpair : hasStatusPair (client.expectedAction :: values) with
  | true => exact pollResponse_eq_none fun bs hbs =>
      findResponse_dirty hmid haction hvalues hpair (hstream ▸ hbs)
  | false =>
    refine pollResponse_eq_some (fun bs hbs =>
      findResponse_clean hmid haction hvalues hpos hpair (hstream ▸ hbs)) (by simp [hrx]; rfl) ?_
    rw [hstream, strip_statusPairs_append, strip_append _ (by simpa using haction),
      strip_of_clean (hasStatusPair_header _ _), strip_append _ (head?_statusPairs after),
      strip_of_clean hpair]
    exact findResponse_whole hmid hvalues hpos

/-- **Responses decode**, for every request of at least one value that was sent, every values, every
size byte, every arrival of the documented response in chunks and any complete status pairs before
and after it: the client returns exactly the values if and only if no two neighbours among the
action and the values look like a status pair.  In particular `read_byte` returns the byte if and
only if it is not `0xA5`. -/
theorem response_decodes_iff {client : CCClient} (hrx : client.rxBuf = [])
    (before after : List Bool)
    (size : UInt8) (arrivals : List (List UInt8)) :
    (∀ request client' values, ReadRequest.send request client = (.ok (), client') →
      values.length = request.count → 1 ≤ request.count →
      arrivals.flatten = statusPairs before ++
        response size client'.expectedMid request.action values ++ statusPairs after →
      ((client'.pollResponse arrivals).1 = some values ↔
        hasStatusPair (request.action :: values) = false)) ∧
    ∀ addr v, arrivals.flatten = statusPairs before ++
        response size (client.sendReadAddrs [addr]).2.expectedMid 0x00 [v] ++ statusPairs after →
      ((client.readByte addr arrivals).1 = .ok (some v) ↔ v ≠ 0xA5) := by
  constructor
  · intro request client' values hsent hvalues hpos harrivals
    obtain ⟨hmid, haction, hcount, hrx'⟩ := ReadRequest.send_ok hsent
    have hbyte : client'.expectedAction ≠ 0xA5 := by
      rw [haction]
      cases request <;> simp [ReadRequest.action]
    rw [pollResponse_eq (hrx'.trans hrx) hmid hbyte (hvalues.trans hcount.symm) (hcount ▸ hpos)
      (haction ▸ harrivals), haction]
    cases hasStatusPair (request.action :: values) <;> simp
  · intro addr v harrivals
    -- a request for one byte is always sent
    obtain ⟨client', hsent⟩ : ∃ client', client.sendReadAddrs [addr] = (.ok (), client') :=
      ⟨_, rfl⟩
    obtain ⟨hmid, haction, hcount, hrx'⟩ := sendRead_ok hsent
    rw [hsent] at harrivals
    have hpoll := pollResponse_eq (hrx'.trans hrx) hmid (by simp [haction])
      (hcount.symm : [v].length = _) (by simp [hcount]) (haction ▸ harrivals)
    simp only [CCClient.readByte, hsent, hpoll, haction]
    by_cases hv : v = 0xA5 <;> simp [hasStatusPair, isStatusPair, hv]

/-- A response to a request for two bytes arrives between two status pairs and in three chunks, the
first of which ends within a status pair. -/
theorem response_decodes_two :
    ∃ client, ReadRequest.send (.addrs [0x0657, 0x0658]) {} = (.ok (), client) ∧
      (client.pollResponse
        [[0x00], [0xA5, 0x2B, 0xD4, 0x22, 0xDD, 0x05, 0x00, 0x20, 0x01, 0x00, 0x03],
          [0x04, 0x04, 0xA5]]).1 = some [0x03, 0x04] := by
  refine ⟨_, rfl, ?_⟩
  refine ((response_decodes_iff rfl [false] [true] 0x05
    [[0x00], [0xA5, 0x2B, 0xD4, 0x22, 0xDD, 0x05, 0x00, 0x20, 0x01, 0x00, 0x03],
      [0x04, 0x04, 0xA5]]).1 (.addrs [0x0657, 0x0658]) _ [0x03, 0x04] rfl rfl ?_ rfl).mpr rfl
  decide

/-- **The defect**: the byte is `0xA5`.  With the action byte before it, it looks like a status
pair; the response is never found and `read_byte` returns nothing. -/
theorem byte_0xA5_not_read :
    (CCClient.sendReadAddrs [0x0657] {}).2.expectedMid = 0x01 ∧
      (CCClient.readByte 0x0657 [response 0x04 0x01 0x00 [0xA5]] {}).1 = .ok none :=
  ⟨rfl, rfl⟩

end EmuCoop.Bridge
