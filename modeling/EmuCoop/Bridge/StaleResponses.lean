import EmuCoop.Bridge.CcResponse

/-!
# Stale responses of the cart

A write leaves an acknowledgement behind that nobody reads, and a read that timed out leaves its
response: when the next request is sent, they are in the stream before its response.
`poll_response` does not skip a response that is not the one it waits for.  It looks at every place
of the stream for the end of a header, the bytes `0x20`, the current id and the current action or
`0x00`, and the values of a stale response can hold these three bytes as well.

## Main results

- `stale_never_mistaken_iff` : nothing but the values of the current response is ever returned if
  and only if no stale response holds the three bytes, or no values are asked for.
- `current_response_found` : in this case the current response is returned once it has arrived.
- `stale_values_returned` : a byte out of a response that came too late is read as the sword.
-/

namespace EmuCoop.Bridge

/-! ## The stream -/

/-- A response of the cart, to a read or to a write. -/
structure CartResponse where
  mid : UInt8
  action : UInt8
  values : List UInt8
  deriving DecidableEq, Repr

/-- The documented format: the size byte is the number of values and three. -/
def CartResponse.bytes (r : CartResponse) : List UInt8 :=
  response (UInt8.ofNat (r.values.length + 3)) r.mid r.action r.values

/-- The stream before the current response: the stale responses, each behind complete status pairs,
and more status pairs. -/
def staleStream (stales : List (List Bool × CartResponse)) (last : List Bool) : List UInt8 :=
  (stales.flatMap fun s => statusPairs s.1 ++ s.2.bytes) ++ statusPairs last

/-- The bytes of the stale responses alone. -/
def staleBytes (stales : List (List Bool × CartResponse)) : List UInt8 :=
  stales.flatMap fun s => s.2.bytes

/-- A stale response that the client takes for the current one: somewhere in it are `0x20`, the
current id and the current action or `0x00`. -/
def CCClient.FalseStart (client : CCClient) (r : CartResponse) : Prop :=
  ∃ i < r.bytes.length, client.StartsAt r.bytes i

instance (client : CCClient) (r : CartResponse) : Decidable (client.FalseStart r) :=
  inferInstanceAs (Decidable (∃ i < _, _))

/-- Every response begins with the prelude. -/
theorem CartResponse.bytes_eq (r : CartResponse) : ∃ more, r.bytes = 0x2B :: 0xD4 :: more :=
  ⟨_, rfl⟩

/-- So do the stale responses before another one. -/
theorem staleBytes_append (stales : List (List Bool × CartResponse)) (r : CartResponse) :
    ∃ more, staleBytes stales ++ r.bytes = 0x2B :: 0xD4 :: more := by
  cases stales with
  | nil => exact r.bytes_eq
  | cons s stales =>
    obtain ⟨more, hmore⟩ := s.2.bytes_eq
    exact ⟨more ++ (staleBytes stales ++ r.bytes), by simp [staleBytes, hmore]⟩

/-! ## Stripping the stream -/

/-- Without `0xA5` there is no status pair. -/
theorem hasStatusPair_of_notMem {bs : List UInt8} (h : 0xA5 ∉ bs) : hasStatusPair bs = false := by
  fun_induction hasStatusPair bs with
  | case1 a b rest ih =>
    obtain ⟨_, hb, hrest⟩ : 0xA5 ≠ a ∧ 0xA5 ≠ b ∧ 0xA5 ∉ rest := by
      simpa only [List.mem_cons, not_or] using h
    have hpair : isStatusPair a b = false := by simp [isStatusPair, hb.symm]
    simp [hpair, ih (by simp [hb, hrest])]
  | case2 bs => rfl

/-- The stream does not start with the second half of a status pair. -/
theorem head?_staleStream (stales : List (List Bool × CartResponse)) (last : List Bool)
    {bs : List UInt8} (hbs : bs.head? ≠ some 0xA5) :
    (staleStream stales last ++ bs).head? ≠ some 0xA5 := by
  have hpairs : ∀ (firsts : List Bool) (rest : List UInt8), rest.head? ≠ some 0xA5 →
      (statusPairs firsts ++ rest).head? ≠ some 0xA5 := by
    intro firsts rest hrest
    cases firsts with
    | nil => simpa [statusPairs] using hrest
    | cons first firsts => cases first <;> simp [statusPairs]
  cases stales with
  | nil => exact hpairs last bs hbs
  | cons s stales =>
    obtain ⟨more, hmore⟩ := s.2.bytes_eq
    simpa [staleStream, hmore] using hpairs s.1 (0x2B :: (0xD4 :: more ++
      (staleStream stales last ++ bs))) (by simp)

/-- Of the stream before the current response only the responses are left. -/
theorem strip_staleStream_append {stales : List (List Bool × CartResponse)} (last : List Bool)
    (hclean : ∀ s ∈ stales, 0xA5 ∉ s.2.bytes) {bs : List UInt8} (hbs : bs.head? ≠ some 0xA5) :
    stripStatusPairs (staleStream stales last ++ bs)
      = staleBytes stales ++ stripStatusPairs bs := by
  induction stales with
  | nil => exact strip_statusPairs_append last bs
  | cons s stales ih =>
    have hs := strip_of_clean (hasStatusPair_of_notMem (hclean s List.mem_cons_self))
    have hrest := ih fun t ht => hclean t (List.mem_cons_of_mem s ht)
    have hcons : staleStream (s :: stales) last ++ bs
        = statusPairs s.1 ++ (s.2.bytes ++ (staleStream stales last ++ bs)) := by
      simp [staleStream]
    rw [hcons, strip_statusPairs_append, strip_append _ (head?_staleStream stales last hbs), hs,
      hrest]
    simp [staleBytes]

/-- Of the whole stream only the responses are left. -/
theorem strip_stream {stales : List (List Bool × CartResponse)} (last : List Bool)
    (hclean : ∀ s ∈ stales, 0xA5 ∉ s.2.bytes) {r : CartResponse} (hr : 0xA5 ∉ r.bytes) :
    stripStatusPairs (staleStream stales last ++ r.bytes) = staleBytes stales ++ r.bytes := by
  obtain ⟨more, hmore⟩ := r.bytes_eq
  rw [strip_staleStream_append last hclean (by simp [hmore]),
    strip_of_clean (hasStatusPair_of_notMem hr)]

/-- The start of a stream is stripped to a start of what is left of the stream, and at most one byte
more: the first half of a pair that is still to come. -/
theorem strip_prefix (as bs : List UInt8) :
    ∃ p e, stripStatusPairs as = p ++ e ∧ p <+: stripStatusPairs (as ++ bs) ∧ e.length ≤ 1 := by
  fun_induction stripStatusPairs as with
  | case1 a b rest hpair ih => simpa [stripStatusPairs, hpair] using ih
  | case2 a b rest hpair ih =>
    obtain ⟨p, e, hstrip, hp, he⟩ := ih
    refine ⟨a :: p, e, by rw [hstrip]; rfl, ?_, he⟩
    have hcons : stripStatusPairs (a :: b :: rest ++ bs)
        = a :: stripStatusPairs (b :: rest ++ bs) := by simp [stripStatusPairs, hpair]
    rw [hcons]
    exact (List.prefix_cons_inj a).mpr hp
  | case3 b => exact ⟨[], [b], rfl, List.nil_prefix, Nat.le_refl 1⟩
  | case4 => exact ⟨[], [], rfl, List.nil_prefix, Nat.zero_le 1⟩

/-- **What is left of a start of the stream**: a start of the stale responses and at most one byte
of a status pair, or the stale responses and a start of the current one. -/
theorem strip_of_stale_prefix {stales : List (List Bool × CartResponse)} {last : List Bool}
    {current bs : List UInt8} (hclean : ∀ s ∈ stales, 0xA5 ∉ s.2.bytes) (hcurrent : 0xA5 ∉ current)
    (hbs : bs <+: staleStream stales last ++ current) :
    (∃ p e, stripStatusPairs bs = p ++ e ∧ p <+: staleBytes stales ∧ e.length ≤ 1) ∨
      ∃ part, part <+: current ∧ stripStatusPairs bs = staleBytes stales ++ part := by
  rcases prefix_append_cases hbs with ⟨more, hmore⟩ | ⟨part, hpart, rfl⟩
  · have hnil : ([] : List UInt8).head? ≠ some 0xA5 := by simp
    have hall : stripStatusPairs (staleStream stales last) = staleBytes stales := by
      simpa [stripStatusPairs] using strip_staleStream_append last hclean hnil
    obtain ⟨p, e, hstrip, hp, he⟩ := strip_prefix bs more
    rw [hmore, hall] at hp
    exact .inl ⟨p, e, hstrip, hp, he⟩
  · have hfree : 0xA5 ∉ part := fun hmem => hcurrent (hpart.subset hmem)
    have hhead : part.head? ≠ some 0xA5 := fun h => hfree (List.mem_of_head? h)
    refine .inr ⟨part, hpart, ?_⟩
    rw [strip_staleStream_append last hclean hhead,
      strip_of_clean (hasStatusPair_of_notMem hfree)]

/-! ## Where a header ends -/

section Starts

variable {client : CCClient} {as bs : List UInt8} {i : ℕ}

/-- The three bytes of a start lie within the stream. -/
theorem CCClient.StartsAt.le (h : client.StartsAt bs i) : i + 3 ≤ bs.length := by
  have hlast : (bs[i + 2]?).isSome := by
    rcases h.2.2 with h2 | h2 <;> simp [h2]
  have hlt : i + 2 < bs.length := by simpa using hlast
  omega

/-- A start that lies in the first of two streams. -/
theorem startsAt_append_left (hi : i + 3 ≤ as.length) :
    client.StartsAt (as ++ bs) i ↔ client.StartsAt as i := by
  simp only [CCClient.StartsAt]
  rw [List.getElem?_append_left (by omega), List.getElem?_append_left (by omega),
    List.getElem?_append_left (by omega)]

/-- A start that lies in the second of two streams. -/
theorem startsAt_append_right : client.StartsAt (as ++ bs) (as.length + i) ↔
    client.StartsAt bs i := by
  simp only [CCClient.StartsAt, Nat.add_assoc]
  rw [List.getElem?_append_right (by omega), List.getElem?_append_right (by omega),
    List.getElem?_append_right (by omega)]
  simp

/-- A start in two streams lies in one of them when the second begins with the prelude: no byte of
the prelude is an action. -/
theorem startsAt_append_cases {more : List UInt8} (hbs : bs = 0x2B :: 0xD4 :: more)
    (haction : client.expectedAction ≠ 0x2B ∧ client.expectedAction ≠ 0xD4)
    (h : client.StartsAt (as ++ bs) i) :
    client.StartsAt as i ∨ ∃ j, i = as.length + j ∧ client.StartsAt bs j := by
  rcases Nat.lt_or_ge i as.length with hlt | hge
  · refine .inl ((startsAt_append_left ?_).mp h)
    -- otherwise the third byte is the first or the second one of the prelude
    by_contra hcross
    have hthird : (as ++ bs)[i + 2]? = some 0x2B ∨ (as ++ bs)[i + 2]? = some 0xD4 := by
      rw [List.getElem?_append_right (by omega), hbs]
      obtain hi | hi : i + 2 - as.length = 0 ∨ i + 2 - as.length = 1 := by omega
      · exact .inl (by rw [hi]; rfl)
      · exact .inr (by rw [hi]; rfl)
    rcases hthird with hb | hb
    · rcases h.2.2 with h2 | h2
      · exact haction.1 (by simpa [hb] using h2.symm)
      · simp [hb] at h2
    · rcases h.2.2 with h2 | h2
      · exact haction.2 (by simpa [hb] using h2.symm)
      · simp [hb] at h2
  · obtain ⟨j, rfl⟩ := Nat.exists_eq_add_of_le hge
    exact .inr ⟨j, rfl, startsAt_append_right.mp h⟩

end Starts

section Stales

variable {client : CCClient} {stales : List (List Bool × CartResponse)}

/-- **Without a false start, the first header to end is the current one.** -/
theorem le_of_startsAt (hmid : client.expectedMid ≠ 0)
    (haction : client.expectedAction ≠ 0x2B ∧ client.expectedAction ≠ 0xD4)
    (hfree : ∀ s ∈ stales, ¬ client.FalseStart s.2) {current : CartResponse} {i : ℕ}
    (h : client.StartsAt (staleBytes stales ++ current.bytes) i) :
    (staleBytes stales).length + 6 ≤ i := by
  induction stales generalizing i with
  | nil =>
    by_contra hlt
    exact not_startsAt_header hmid (by simpa [staleBytes] using hlt) h
  | cons s stales ih =>
    obtain ⟨more, hmore⟩ := staleBytes_append stales current
    have hcons : staleBytes (s :: stales) ++ current.bytes
        = s.2.bytes ++ (staleBytes stales ++ current.bytes) := by simp [staleBytes]
    rw [hcons] at h
    rcases startsAt_append_cases hmore haction h with hstart | ⟨j, rfl, hstart⟩
    · have hle := hstart.le
      exact absurd ⟨i, by omega, hstart⟩ (hfree s List.mem_cons_self)
    · have hj := ih (fun t ht => hfree t (List.mem_cons_of_mem s ht)) hstart
      simp only [staleBytes, List.flatMap_cons, List.length_append] at hj ⊢
      omega

/-- A false start lies in the bytes of the stale responses. -/
theorem exists_startsAt_of_falseStart {s : List Bool × CartResponse} (hs : s ∈ stales)
    (h : client.FalseStart s.2) : ∃ i, client.StartsAt (staleBytes stales) i := by
  obtain ⟨i, _, hstart⟩ := h
  obtain ⟨before, after, rfl⟩ := List.append_of_mem hs
  have hsplit : staleBytes (before ++ s :: after)
      = staleBytes before ++ (s.2.bytes ++ staleBytes after) := by simp [staleBytes]
  refine ⟨(staleBytes before).length + i, ?_⟩
  rw [hsplit]
  exact startsAt_append_right.mpr ((startsAt_append_left hstart.le).mpr hstart)

end Stales

/-! ## What is returned -/

section Returned

variable {client : CCClient} {stales : List (List Bool × CartResponse)} {last : List Bool}
  {values bs : List UInt8}

/-- The current response, as the client expects it. -/
def CCClient.current (client : CCClient) (values : List UInt8) : CartResponse :=
  ⟨client.expectedMid, client.expectedAction, values⟩

/-- It has nine bytes more than values. -/
theorem length_current (values : List UInt8) :
    (client.current values).bytes.length = 9 + values.length := by
  simp [CCClient.current, CartResponse.bytes, response, header]
  omega

/-- Behind the header of the current response are its values. -/
theorem drop_current (before values : List UInt8) :
    (before ++ (client.current values).bytes).drop (before.length + 6 + 3) = values := by
  rw [Nat.add_assoc, List.drop_append]
  simp [CCClient.current, CartResponse.bytes, response, header]

/-- **A response is found only in the whole stream**, and it is the current one. -/
theorem found_current (hmid : client.expectedMid ≠ 0)
    (haction : client.expectedAction ≠ 0x2B ∧ client.expectedAction ≠ 0xD4)
    (hpos : 1 ≤ client.expectedValues) (hvalues : values.length = client.expectedValues)
    (hclean : ∀ s ∈ stales, 0xA5 ∉ s.2.bytes) (hcurrent : 0xA5 ∉ (client.current values).bytes)
    (hfree : ∀ s ∈ stales, ¬ client.FalseStart s.2)
    (hbs : bs <+: staleStream stales last ++ (client.current values).bytes)
    {result : List UInt8} (hfound : client.findResponse (stripStatusPairs bs) = some result) :
    stripStatusPairs bs = staleBytes stales ++ (client.current values).bytes ∧ result = values := by
  obtain ⟨i, _, hat⟩ := List.exists_of_findSome?_eq_some hfound
  obtain ⟨hstart, hlen, hresult⟩ := responseAt_eq_some_iff.mp hat
  rcases strip_of_stale_prefix hclean hcurrent hbs with
    ⟨p, e, hstrip, hp, he⟩ | ⟨part, hpart, hstrip⟩
  -- the start lies in the stale responses: a value has to follow it
  · rw [hstrip] at hstart hlen
    rw [List.length_append] at hlen
    have hstart' := (((startsAt_append_left (by omega)).mp hstart).mono hp).mono
      (List.prefix_append _ (client.current values).bytes)
    have hle := le_of_startsAt hmid haction hfree hstart'
    have hple := hp.length_le
    omega
  · rw [hstrip] at hstart hlen
    have hle := le_of_startsAt hmid haction hfree
      (hstart.mono ((List.prefix_append_right_inj (staleBytes stales)).mpr hpart))
    -- there is room for the values only behind the current header, and only in the whole stream
    have hpartle := hpart.length_le
    rw [length_current] at hpartle
    rw [List.length_append] at hlen
    have hwhole : part = (client.current values).bytes :=
      hpart.eq_of_length (by rw [length_current]; omega)
    have hi : i = (staleBytes stales).length + 6 := by omega
    rw [hstrip, hwhole, hi, drop_current, ← hvalues, List.take_length] at hresult
    exact ⟨by rw [hstrip, hwhole], hresult.symm⟩

/-- The current response is found in the whole stream. -/
theorem findResponse_current (hmid : client.expectedMid ≠ 0)
    (haction : client.expectedAction ≠ 0x2B ∧ client.expectedAction ≠ 0xD4)
    (hpos : 1 ≤ client.expectedValues) (hvalues : values.length = client.expectedValues)
    (hfree : ∀ s ∈ stales, ¬ client.FalseStart s.2) :
    client.findResponse (staleBytes stales ++ (client.current values).bytes) = some values := by
  have hlength : (staleBytes stales ++ (client.current values).bytes).length
      = (staleBytes stales).length + (9 + values.length) := by
    rw [List.length_append, length_current]
  refine findSome?_range (i := (staleBytes stales).length + 6) (by omega) ?_ fun j hj => ?_
  · refine responseAt_eq_some_iff.mpr ⟨startsAt_append_right.mpr ⟨rfl, rfl, .inl rfl⟩, ?_, ?_⟩
    · omega
    · rw [drop_current, ← hvalues, List.take_length]
  · by_contra hsome
    obtain ⟨result, hresult⟩ := Option.ne_none_iff_exists'.mp hsome
    have hle := le_of_startsAt hmid haction hfree (responseAt_eq_some_iff.mp hresult).1
    omega

/-- **With a false start, what is returned starts with a byte that the current values have no part
in**: the byte behind the first false start. -/
theorem exists_head_of_falseStart (hpos : 1 ≤ client.expectedValues)
    (hfalse : ∃ s ∈ stales, client.FalseStart s.2) :
    ∃ b, ∀ values, values.length = client.expectedValues →
      ∃ more, client.findResponse (staleBytes stales ++ (client.current values).bytes)
        = some (b :: more) := by
  obtain ⟨s, hs, hstart⟩ := hfalse
  -- The first false start is the one that is taken.
  have hexists := exists_startsAt_of_falseStart hs hstart
  have hle := (Nat.find_spec hexists).le
  -- At least one byte of what was sent before the values follows it.
  obtain ⟨b, rest, hrest⟩ : ∃ b rest,
      (staleBytes stales ++ [0x2B]).drop (Nat.find hexists + 3) = b :: rest := by
    have hlt : Nat.find hexists + 3 < (staleBytes stales ++ [0x2B]).length := by
      rw [List.length_append, List.length_singleton]
      omega
    exact ⟨_, _, List.drop_eq_getElem_cons hlt⟩
  refine ⟨b, fun values hvalues => ?_⟩
  obtain ⟨more, hmore⟩ := (client.current values).bytes_eq
  have hdrop : (staleBytes stales ++ (client.current values).bytes).drop (Nat.find hexists + 3)
      = b :: (rest ++ 0xD4 :: more) := by
    rw [hmore, ← List.singleton_append, ← List.append_assoc, List.drop_append_of_le_length
      (by rw [List.length_append]; omega), hrest]
    rfl
  have hlength : (staleBytes stales ++ (client.current values).bytes).length
      = (staleBytes stales).length + (9 + values.length) := by
    rw [List.length_append, length_current]
  refine ⟨(rest ++ 0xD4 :: more).take (client.expectedValues - 1),
    findSome?_range (i := Nat.find hexists) (by omega) ?_ fun j hj => ?_⟩
  · refine responseAt_eq_some_iff.mpr ⟨?_, by omega, ?_⟩
    · exact (startsAt_append_left hle).mpr (Nat.find_spec hexists)
    · obtain ⟨n, hn⟩ := Nat.exists_eq_add_of_le' hpos
      rw [hdrop, hn, List.take_succ_cons, Nat.add_sub_cancel]
  -- An earlier result would be an earlier false start.
  · by_contra hsome
    obtain ⟨result, hresult⟩ := Option.ne_none_iff_exists'.mp hsome
    have hearlier := (responseAt_eq_some_iff.mp hresult).1
    exact Nat.find_min hexists hj ((startsAt_append_left (by omega)).mp hearlier)

end Returned

/-! ## Requests after stale responses -/

/-- What a single chunk gives. -/
theorem pollResponse_singleton (client : CCClient) (chunk : List UInt8) :
    (client.pollResponse [chunk]).1
      = client.findResponse (stripStatusPairs (client.rxBuf ++ chunk)) := by
  rw [CCClient.pollResponse]
  cases hnow : client.findResponse (stripStatusPairs (client.rxBuf ++ chunk)) with
  | none =>
    have hfind : CCClient.findResponse { client with rxBuf := client.rxBuf ++ chunk }
        (stripStatusPairs (client.rxBuf ++ chunk)) = none := hnow
    simp only [hfind, CCClient.pollResponse]
  | some found =>
    have hfind : CCClient.findResponse { client with rxBuf := client.rxBuf ++ chunk }
        (stripStatusPairs (client.rxBuf ++ chunk)) = some found := hnow
    simp only [hfind]

/-- The action of a read request is no byte of the prelude and not the second half of a pair. -/
theorem ReadRequest.action_ne (request : ReadRequest) :
    (request.action ≠ 0x2B ∧ request.action ≠ 0xD4) ∧ request.action ≠ 0xA5 := by
  cases request <;> simp [ReadRequest.action]

section Requests

variable {client client' : CCClient} {request : ReadRequest}
  {stales : List (List Bool × CartResponse)} {last : List Bool}

/-- The response to the request is the one the client expects. -/
theorem current_eq (hsent : request.send client = (.ok (), client')) (values : List UInt8) :
    CartResponse.mk client'.expectedMid request.action values = client'.current values := by
  rw [CCClient.current, (ReadRequest.send_ok hsent).2.1]

/-- After stale responses without a false start, the current response is returned once it has
arrived, whatever the chunks. -/
theorem current_response_found (hsent : request.send client = (.ok (), client'))
    (hclean : ∀ s ∈ stales, 0xA5 ∉ s.2.bytes) (hfree : ∀ s ∈ stales, ¬ client'.FalseStart s.2)
    (hrx : client'.rxBuf <+: staleStream stales last) (hpos : 1 ≤ request.count)
    {values : List UInt8} (hvalues : values.length = request.count)
    (hcurrent : 0xA5 ∉ (CartResponse.mk client'.expectedMid request.action values).bytes)
    {arrivals : List (List UInt8)}
    (harrivals : client'.rxBuf ++ arrivals.flatten = staleStream stales last ++
      (CartResponse.mk client'.expectedMid request.action values).bytes) :
    (client'.pollResponse arrivals).1 = some values := by
  obtain ⟨hmid, haction, hcount, -⟩ := ReadRequest.send_ok hsent
  have hne := haction ▸ request.action_ne.1
  rw [current_eq hsent] at hcurrent harrivals
  rw [← hcount] at hpos hvalues
  have hfound : ∀ bs result, bs <+: client'.rxBuf ++ arrivals.flatten →
      client'.findResponse (stripStatusPairs bs) = some result →
      stripStatusPairs bs = staleBytes stales ++ (client'.current values).bytes ∧
        result = values := fun bs result hbs =>
    found_current hmid hne hpos hvalues hclean hcurrent hfree (harrivals ▸ hbs)
  refine pollResponse_eq_some (fun bs hbs => ?_) ?_ ?_
  · cases hnow : client'.findResponse (stripStatusPairs bs) with
    | none => exact .inl rfl
    | some result => exact .inr (congrArg some (hfound bs result hbs hnow).2)
  -- what was received before the request does not reach into its response
  · cases hnow : client'.findResponse (stripStatusPairs client'.rxBuf) with
    | none => rfl
    | some result =>
      have hwhole := (hfound _ result (List.prefix_append _ _) hnow).1
      obtain ⟨more, hmore⟩ := hrx
      have hle := length_strip_prefix client'.rxBuf more
      have hall := strip_staleStream_append last hclean (show ([] : List UInt8).head? ≠ _ by simp)
      rw [List.append_nil] at hall
      rw [hwhole, hmore, hall, stripStatusPairs, List.append_nil, List.length_append,
        length_current] at hle
      omega
  · rw [harrivals, strip_stream last hclean hcurrent]
    exact findResponse_current hmid hne hpos hvalues hfree

/-- **Stale responses**, for every read request that was sent, every stale responses to reads or
writes with status pairs between them, every current response and every arrival of this stream or a
start of it in chunks, with part of the stale responses already received, and no `0xA5` in a
response: the client never returns anything but the values of the current response if and only if no
stale response has `0x20`, the current id and then the current action or `0x00` in it, or no values
are asked for. -/
theorem stale_never_mistaken_iff (hsent : request.send client = (.ok (), client'))
    (hclean : ∀ s ∈ stales, 0xA5 ∉ s.2.bytes)
    (hheader : 0xA5 ∉ header (UInt8.ofNat (request.count + 3)) client'.expectedMid)
    (hrx : client'.rxBuf <+: staleStream stales last) :
    (∀ values arrivals result, values.length = request.count → 0xA5 ∉ values →
      client'.rxBuf ++ arrivals.flatten <+: staleStream stales last ++
        (CartResponse.mk client'.expectedMid request.action values).bytes →
      (client'.pollResponse arrivals).1 = some result → result = values) ↔
    (∀ s ∈ stales, ¬ client'.FalseStart s.2) ∨ request.count = 0 := by
  obtain ⟨hmid, haction, hcount, -⟩ := ReadRequest.send_ok hsent
  have hne := haction ▸ request.action_ne.1
  have hcurrent : ∀ values : List UInt8, values.length = request.count → 0xA5 ∉ values →
      0xA5 ∉ (client'.current values).bytes := by
    intro values hvalues hfree
    rw [CCClient.current, CartResponse.bytes, response, hvalues, List.mem_append, List.mem_cons,
      not_or, not_or, haction]
    exact ⟨hheader, request.action_ne.2.symm, hfree⟩
  constructor
  -- a false start can be followed by values that make the client return something else
  · intro hnever
    by_contra hnot
    obtain ⟨hstale, hpos⟩ := not_or.mp hnot
    push Not at hstale
    obtain ⟨b, hb⟩ := exists_head_of_falseStart (by omega) hstale
    -- values that do not begin with the byte behind the false start
    obtain ⟨v, hv, hvb⟩ : ∃ v : UInt8, v ≠ 0xA5 ∧ v ≠ b := by
      by_cases h : b = 0
      · exact ⟨1, by decide, by simp [h]⟩
      · exact ⟨0, by decide, fun h0 => h h0.symm⟩
    have hvalues : (List.replicate request.count v).length = request.count := List.length_replicate
    have hfree : 0xA5 ∉ List.replicate request.count v :=
      fun hmem => hv (List.eq_of_mem_replicate hmem).symm
    obtain ⟨more, hmore⟩ := hb _ (hvalues.trans hcount.symm)
    obtain ⟨rest, hrest⟩ := hrx
    have hall : client'.rxBuf ++ (rest ++ (client'.current (.replicate request.count v)).bytes)
        = staleStream stales last ++ (client'.current (.replicate request.count v)).bytes := by
      rw [← List.append_assoc, hrest]
    have hpoll := pollResponse_singleton client'
      (rest ++ (client'.current (.replicate request.count v)).bytes)
    rw [hall, strip_stream last hclean (hcurrent _ hvalues hfree), hmore] at hpoll
    have hsame := hnever _ _ _ hvalues hfree
      (by rw [current_eq hsent, List.flatten_singleton, hall]) hpoll
    have hhead : b ∈ List.replicate request.count v := hsame ▸ List.mem_cons_self
    exact hvb (List.eq_of_mem_replicate hhead).symm
  -- without one the first match is the current response
  · intro hcondition values arrivals result hvalues hfree harrivals hpoll
    obtain ⟨bs, hbs, hfound⟩ := exists_of_pollResponse hpoll
    rcases Nat.eq_zero_or_pos request.count with hzero | hpos
    -- what is returned for no values is empty, as the values are
    · obtain ⟨i, _, hat⟩ := List.exists_of_findSome?_eq_some hfound
      have hresult := (responseAt_eq_some_iff.mp hat).2.2
      rw [hcount, hzero, List.take_zero] at hresult
      rw [← hresult, List.length_eq_zero_iff.mp (hvalues.trans hzero)]
    -- and with values to return it is found where it is
    · have hno := hcondition.resolve_right (by omega)
      rw [current_eq hsent] at harrivals
      exact (found_current hmid hne (hcount ▸ hpos) (hvalues.trans hcount.symm) hclean
        (hcurrent values hvalues hfree) hno (hbs.trans harrivals) hfound).2

end Requests

/-- The acknowledgement of a write is still unread when the next byte is asked for. -/
theorem stale_never_mistaken_write :
    ∃ client client', CCClient.sendWritePairs [(0x0657, 0x03)] {} = (.ok (), client) ∧
      ReadRequest.send (.addrs [0x0657]) client = (.ok (), client') ∧
      ∀ values arrivals result, values.length = 1 → 0xA5 ∉ values →
        client'.rxBuf ++ arrivals.flatten <+: staleStream [([false], ⟨0x01, 0x02, []⟩)] [true] ++
          (CartResponse.mk client'.expectedMid 0x00 values).bytes →
        (client'.pollResponse arrivals).1 = some result → result = values := by
  refine ⟨_, _, rfl, rfl, ?_⟩
  have hsent : ReadRequest.send (.addrs [0x0657])
      (CCClient.sendWritePairs [(0x0657, 0x03)] {}).2 = (.ok (), _) := rfl
  exact (stale_never_mistaken_iff hsent (by decide) (by decide) List.nil_prefix).mpr
    (.inl (by decide))

/-- **The defect**: a read of four bytes times out, and its response arrives when the next request
is for the sword, which is `0x03`.  The four bytes hold `0x20`, the id of this request and `0x00`:
the byte behind them is returned. -/
theorem stale_values_returned :
    ∃ client client' client'',
      ReadRequest.send (.array 0x0660 4) {} = (.ok (), client) ∧
      client.pollResponse [] = (none, client') ∧
      ReadRequest.send (.addrs [0x0657]) client' = (.ok (), client'') ∧
      client''.rxBuf = [] ∧ client.expectedMid ≠ client''.expectedMid ∧
      0xA5 ∉ (CartResponse.mk client.expectedMid 0x01 [0x20, 0x02, 0x00, 0x07]).bytes ∧
      0xA5 ∉ (CartResponse.mk client''.expectedMid 0x00 [0x03]).bytes ∧
      (client''.pollResponse
        [(CartResponse.mk client.expectedMid 0x01 [0x20, 0x02, 0x00, 0x07]).bytes,
          (CartResponse.mk client''.expectedMid 0x00 [0x03]).bytes]).1 = some [0x07] :=
  ⟨_, _, _, rfl, rfl, rfl, rfl, by decide, by decide, by decide, by decide⟩

end EmuCoop.Bridge
