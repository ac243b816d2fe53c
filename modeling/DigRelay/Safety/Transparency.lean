import DigRelay.Intake

/-!
# What the client sends reaches the handshake

Nothing is taken off the stream of a connection that is not from a trusted proxy, and its address
stays. From a trusted proxy exactly a header is taken off, if there is one, and its address block
decides the address. Whatever is left then reaches the handshake unchanged, although the request head
has been read off it once already.
-/

namespace DigRelay

open Common

variable {S : Type*} [Reader S UInt8]

/-- The head of what is sent: everything up to the first blank line. -/
structure IsHeadOf (head bytes : List UInt8) : Prop where
  starts : head <+: bytes
  ends : headEnd <:+ head
  first : ∀ earlier, earlier <+: head → headEnd <:+ earlier → earlier = head

/-- The head ends no later than any blank line. -/
theorem IsHeadOf.length_le {head bytes : List UInt8} {count : ℕ} (h : IsHeadOf head bytes)
    (hblank : headEnd <:+: bytes.take count) : head.length ≤ count := by
  obtain ⟨before, after, hbytes⟩ := hblank
  have hprefix : before ++ headEnd <+: bytes :=
    (List.prefix_append _ after).trans (hbytes ▸ List.take_prefix count bytes)
  have hcount : (before ++ headEnd).length ≤ count := by
    have hlength := congrArg List.length hbytes
    rw [List.length_append, List.length_take] at hlength
    omega
  rcases List.prefix_or_prefix_of_prefix h.starts hprefix with hshort | hlong
  · exact hshort.length_le.trans hcount
  · rw [← h.first _ hlong (List.suffix_append before headEnd)]
    exact hcount

/-- Reading on from a part of a head that is not too long comes to the end of the head. -/
theorem readRequestHead_of_head {buffer todo rest : List UInt8} (htodo : todo ≠ [])
    (hends : headEnd <:+ buffer ++ todo)
    (hfirst : ∀ earlier, earlier <+: buffer ++ todo → headEnd <:+ earlier → earlier = buffer ++ todo)
    (hlength : (buffer ++ todo).length ≤ maxHeadBytes) :
    readRequestHead buffer (todo ++ rest) =
      (parseRequestHead (buffer ++ todo)).map fun head => (head, buffer ++ todo, rest) := by
  induction todo generalizing buffer with
  | nil => exact absurd rfl htodo
  | cons byte todo ih =>
    have hmore : buffer ++ byte :: todo = buffer ++ [byte] ++ todo := by simp
    rw [hmore] at hends hfirst hlength ⊢
    simp only [List.cons_append, readRequestHead, pushByte, List.isSuffixOf_iff_suffix]
    by_cases hblank : headEnd <:+ buffer ++ [byte]
    · have heq := hfirst _ (List.prefix_append _ todo) hblank
      obtain rfl : todo = [] := by simpa using heq
      simp [hblank]
    · have hleft : todo ≠ [] := by
        rintro rfl
        exact hblank (by simpa using hends)
      have hroom : ¬ (buffer ++ [byte]).length ≥ maxHeadBytes := by
        have hpos := List.length_pos_iff.mpr hleft
        rw [List.length_append] at hlength
        omega
      simp only [hblank, if_false, hroom]
      exact ih hleft hends hfirst hlength

/-- A stream whose head asks for an upgrade and is not too long reaches the handshake unchanged. -/
theorem handshakeStream_of_upgrade {stream : S} {bytes head : List UInt8} {parsed : RequestHead}
    (h : Reader.Yields stream bytes) (hblank : headEnd <:+: bytes.take maxHeadBytes)
    (hhead : IsHeadOf head bytes) (hparse : parseRequestHead head = .ok parsed)
    (hupgrade : parsed.isWebsocketUpgrade = true) :
    ∃ ws, handshakeStream stream = .ok (some ws) ∧ Reader.Yields ws bytes := by
  have hlength := hhead.length_le hblank
  obtain ⟨rest, rfl⟩ := hhead.starts
  have hnonempty : head ≠ [] := by
    rintro rfl
    exact absurd (List.suffix_nil.mp hhead.ends) (by decide)
  have hscan := @readRequestHead_of_head [] head rest hnonempty hhead.ends hhead.first hlength
  have hread : readRequestHead [] (head ++ rest) = .ok (parsed, head, rest) := by
    rw [hscan, List.nil_append, hparse]
    rfl
  obtain ⟨left, hfrom, hleft⟩ :=
    readRequestHeadFrom_of_yields h (by decide) (Nat.le_add_left _ _) hread
  refine ⟨Prefixed.new head left, ?_, Replay.yields (r := Prefixed.new head left) hleft⟩
  simp only [handshakeStream, hfrom, Except.map, hupgrade, if_true]

/-- However a client's bytes come in: from a source that is not trusted nothing is read and the
address stays. From a trusted one, what does not start with the signature is all left and the address
stays; a header with a known command and a block within the bound is taken off exactly, and the
address is the one a complete block of the PROXY command encodes, or stays. What is left reaches the
handshake unchanged if its head is within the bound and asks for an upgrade. -/
theorem resolveSource_transparent (trustedProxies : TrustedProxies) (elapsed : Duration)
    (client : Pieces UInt8) (peerAddr : SocketAddr) (hlength : 16 ≤ client.bytes.length) :
    (trustedProxies.trusts peerAddr.ip = false →
      resolveSource trustedProxies elapsed client peerAddr =
          some (PrefixedStream.new [] client, peerAddr) ∧
        Reader.Yields (PrefixedStream.new [] client) client.bytes) ∧
    (trustedProxies.trusts peerAddr.ip = true → elapsed ≤ proxyHeaderTimeout →
      (¬ v2Signature <+: client.bytes →
        ∃ left, resolveSource trustedProxies elapsed client peerAddr = some (left, peerAddr) ∧
          Reader.Yields left client.bytes) ∧
      ∀ command family block rest, command = cmdProxy ∨ command = cmdLocal →
        block.length ≤ maxAddressBlock → client.bytes = v2Header command family block ++ rest →
          ∃ left source, resolveSource trustedProxies elapsed client peerAddr = some (left, source) ∧
            (v2Header command family block).length = 16 + block.length ∧ Reader.Yields left rest ∧
            (command = cmdProxy ∧ IsComplete family block → Encodes family block source) ∧
            (¬ (command = cmdProxy ∧ IsComplete family block) → source = peerAddr)) ∧
    ∀ left source bytes head parsed,
      resolveSource trustedProxies elapsed client peerAddr = some (left, source) →
        Reader.Yields left bytes → headEnd <:+: bytes.take maxHeadBytes → IsHeadOf head bytes →
          parseRequestHead head = .ok parsed → parsed.isWebsocketUpgrade = true →
            ∃ ws, handshakeStream left = .ok (some ws) ∧ Reader.Yields ws bytes := by
  refine ⟨fun huntrusted => ⟨?_, ?_⟩, fun htrusted htime => ⟨fun hother => ?_, ?_⟩, ?_⟩
  · rw [resolveSource, huntrusted]
    rfl
  · exact Replay.yields (r := PrefixedStream.new [] client) client.yields
  · have hfixed : parseFixed (client.bytes.take v2FixedLen) = .error .notProxyProtocol := by
      have hstart : (client.bytes.take v2FixedLen).take 12 ≠ v2Signature := by
        rw [List.take_take]
        exact fun heq => hother (heq ▸ List.take_prefix 12 client.bytes)
      rw [parseFixed, if_pos hstart]
    obtain ⟨left, hread, hleft⟩ := readSourceAddr_of_error client.yields hlength hfixed
    exact ⟨left, resolveSource_of_read htrusted htime hread, hleft⟩
  · intro command family block rest hcommand hblock hbytes
    obtain ⟨left, hread, hleft⟩ := readSourceAddr_of_header (hbytes ▸ client.yields) hcommand hblock
    refine ⟨left, _, resolveSource_of_read htrusted htime hread, ?_, hleft, ?_, ?_⟩
    · rw [v2Header, List.length_append, List.length_append, length_toOctets]
      rfl
    · rintro ⟨rfl, hcomplete⟩
      obtain ⟨source, hsource, hencodes⟩ := declaredSource_of_complete hcomplete
      rw [hsource]
      exact hencodes
    · intro hincomplete
      rw [declaredSource_of_not_complete hcommand hincomplete]
      rfl
  · intro left source bytes head parsed _ hleft hblank hhead hparse hupgrade
    exact handshakeStream_of_upgrade hleft hblank hhead hparse hupgrade

/-- Believe headers from `10.0.0.0/8`. -/
def balancers : TrustedProxies := ⟨[⟨.v4 0x0a000000, 8, by decide⟩]⟩

/-- The address of a balancer. -/
def balancerAddr : SocketAddr := { ip := .v4 0x0a000001, port := 5000 }

/-- A header that declares `203.0.113.7:40000`, followed by a TLV. -/
def sampleHeader : List UInt8 :=
  v2Header cmdProxy afTcp4 [203, 0, 113, 7, 10, 0, 0, 2, 0x9c, 0x40, 0x01, 0xbb, 0x04, 0x00, 0x00]

/-- A request for an upgrade. -/
def sampleRequest : List UInt8 :=
  "GET / HTTP/1.1\r\nConnection: Upgrade\r\nUpgrade: websocket\r\n\r\n".toList.map
    fun char => UInt8.ofNat char.toNat

/-- A balancer's header and a client's request, cut in the middle of both. -/
def sampleClient : Pieces UInt8 :=
  ⟨[sampleHeader.take 5, sampleHeader.drop 5 ++ sampleRequest.take 20, sampleRequest.drop 20],
    by decide +kernel⟩

/-- The address declared by a balancer is found and the client's request reaches the handshake. -/
theorem resolveSource_transparent_balancer :
    ∃ left source ws, resolveSource balancers 0 sampleClient balancerAddr = some (left, source) ∧
      Encodes afTcp4 [203, 0, 113, 7, 10, 0, 0, 2, 0x9c, 0x40, 0x01, 0xbb, 0x04, 0x00, 0x00] source ∧
      handshakeStream left = .ok (some ws) ∧ Reader.Yields ws sampleRequest := by
  obtain ⟨-, htrusted, hhandshake⟩ :=
    resolveSource_transparent balancers 0 sampleClient balancerAddr (by decide +kernel)
  obtain ⟨left, source, hresolve, -, hleft, hencodes, -⟩ := (htrusted (by decide) (by decide)).2
    cmdProxy afTcp4 [203, 0, 113, 7, 10, 0, 0, 2, 0x9c, 0x40, 0x01, 0xbb, 0x04, 0x00, 0x00]
    sampleRequest (.inl rfl) (by decide) (by decide +kernel)
  have hhead : IsHeadOf sampleRequest sampleRequest := by
    refine ⟨List.prefix_rfl, by decide +kernel, fun earlier hstart hend => ?_⟩
    have hinits : ∀ earlier ∈ sampleRequest.inits, headEnd <:+ earlier → earlier = sampleRequest := by
      decide +kernel
    exact hinits earlier ((List.mem_inits _ _).mpr hstart) hend
  have hparse : parseRequestHead sampleRequest =
      .ok { method := "GET", target := "/", host := none, isWebsocketUpgrade := true } := by
    decide +kernel
  obtain ⟨ws, hws, hyields⟩ := hhandshake left source sampleRequest sampleRequest _ hresolve hleft
    (by decide +kernel) hhead hparse rfl
  exact ⟨left, source, ws, hresolve, hencodes ⟨rfl, by decide⟩, hws, hyields⟩

end DigRelay
