import DigRelay.Safety.Transparency

/-!
# Headers that are not understood

A header of an unknown version or command, or with a block that is too long, is put back in front of
the stream. The signature it begins with contains a blank line, so the octets put back end the request
head before it has begun, and the connection fails. Only a header that is understood far enough to be
taken off leaves the request behind it to be read.
-/

namespace DigRelay

open Common

variable {S : Type*} [Reader S UInt8]

/-- A complete header frame: the signature, the version and command, the family, the length of the
block and the block. -/
def v2Frame (verCmd family : UInt8) (block : List UInt8) : List UInt8 :=
  v2Signature ++ [verCmd, family] ++ toOctets 2 block.length ++ block

/-- A frame that is taken off the stream: version 2, a known command and a block within the bound. -/
def IsSupported (verCmd : UInt8) (block : List UInt8) : Prop :=
  verCmd >>> 4 = 2 ∧ (verCmd &&& 0x0f = cmdProxy ∨ verCmd &&& 0x0f = cmdLocal) ∧
    block.length ≤ maxAddressBlock

/-- A frame that declares the client's address: a supported one with the PROXY command and a complete
block of TCP over IPv4 or IPv6. -/
def IsUsable (verCmd family : UInt8) (block : List UInt8) : Prop :=
  IsSupported verCmd block ∧ verCmd &&& 0x0f = cmdProxy ∧ IsComplete family block

instance (verCmd : UInt8) (block : List UInt8) : Decidable (IsSupported verCmd block) :=
  inferInstanceAs (Decidable (_ ∧ _))

instance (verCmd family : UInt8) (block : List UInt8) : Decidable (IsUsable verCmd family block) :=
  inferInstanceAs (Decidable (_ ∧ _))

/-- A version 2 octet is made up of its version and its command. -/
theorem verCmd_eq_of_version (verCmd : UInt8) (h : verCmd >>> 4 = 2) :
    verCmd = 0x20 ||| (verCmd &&& 0x0f) := by
  have hall : ∀ n < 256, UInt8.ofNat n >>> 4 = 2 → UInt8.ofNat n = 0x20 ||| (UInt8.ofNat n &&& 0x0f) := by
    decide +kernel
  exact forall_octet (P := fun verCmd => verCmd >>> 4 = 2 → verCmd = 0x20 ||| (verCmd &&& 0x0f)) hall verCmd h

/-- A supported frame is a header of its command. -/
theorem IsSupported.v2Frame_eq {verCmd family : UInt8} {block : List UInt8}
    (h : IsSupported verCmd block) :
    v2Frame verCmd family block = v2Header (verCmd &&& 0x0f) family block := by
  rw [v2Frame, v2Header, ← verCmd_eq_of_version verCmd h.1]

/-- The fixed part of a frame that is not supported is refused. -/
theorem parseFixed_of_not_supported {verCmd family : UInt8} {block : List UInt8}
    (hlength : block.length < 65536) (h : ¬IsSupported verCmd block) :
    parseFixed (v2Signature ++ [verCmd, family] ++ toOctets 2 block.length) = .error .malformed := by
  have hlen : ofOctets (toOctets 2 block.length) = block.length := ofOctets_toOctets hlength
  have hoctets : [(v2Signature ++ [verCmd, family] ++ toOctets 2 block.length).getD 14 0,
      (v2Signature ++ [verCmd, family] ++ toOctets 2 block.length).getD 15 0] =
      toOctets 2 block.length := rfl
  have hverCmd : (v2Signature ++ [verCmd, family] ++ toOctets 2 block.length).getD 12 0 = verCmd := rfl
  have hsignature : (v2Signature ++ [verCmd, family] ++ toOctets 2 block.length).take 12 =
      v2Signature := rfl
  unfold parseFixed
  rw [hsignature, if_neg (not_not.mpr rfl)]
  simp only [hverCmd, hoctets, hlen]
  split
  · rfl
  · rename_i hversion
    split
    · rfl
    · rename_i hcommand
      split
      · rfl
      · rename_i hblock
        refine absurd ⟨not_not.mp hversion, ?_, not_lt.mp hblock⟩ h
        by_contra hunknown
        exact hcommand (not_or.mp hunknown)

/-- A frame that is not supported is put back, and no address is declared. -/
theorem readSourceAddr_of_not_supported {stream : S} {verCmd family : UInt8} {block rest : List UInt8}
    (h : Reader.Yields stream (v2Frame verCmd family block ++ rest)) (hlength : block.length < 65536)
    (hsupported : ¬IsSupported verCmd block) :
    ∃ left, readSourceAddr stream = some (none, left) ∧
      Reader.Yields left (v2Frame verCmd family block ++ rest) := by
  have hfixed : (v2Frame verCmd family block ++ rest).take v2FixedLen =
      v2Signature ++ [verCmd, family] ++ toOctets 2 block.length := by
    rw [v2Frame, List.append_assoc]
    exact List.take_left' (by simp [v2Signature, v2FixedLen])
  have hlong : v2FixedLen ≤ (v2Frame verCmd family block ++ rest).length := by
    simp [v2Frame, v2Signature, v2FixedLen]
  apply readSourceAddr_of_error h hlong
  rw [hfixed]
  exact parseFixed_of_not_supported hlength hsupported

/-- A stream that begins with the signature has no request head: the blank line in the signature ends
it before a method has been named. -/
theorem readRequestHeadFrom_of_signature {stream : S} {bytes : List UInt8}
    (h : Reader.Yields stream (v2Signature ++ bytes)) :
    readRequestHeadFrom [] stream maxHeadBytes = .error .missingMethod := by
  obtain ⟨hread1, hyields1⟩ := read_one_of_yields h
  obtain ⟨hread2, hyields2⟩ := read_one_of_yields hyields1
  obtain ⟨hread3, hyields3⟩ := read_one_of_yields hyields2
  obtain ⟨hread4, -⟩ := read_one_of_yields hyields3
  have hpush1 : pushByte [] 0x0d = .reading [0x0d] := rfl
  have hpush2 : pushByte [0x0d] 0x0a = .reading [0x0d, 0x0a] := rfl
  have hpush3 : pushByte [0x0d, 0x0a] 0x0d = .reading [0x0d, 0x0a, 0x0d] := rfl
  have hpush4 : pushByte [0x0d, 0x0a, 0x0d] 0x0a = .done (.error .missingMethod) := rfl
  have hfuel : maxHeadBytes = 16380 + 1 + 1 + 1 + 1 := rfl
  simp only [hfuel, readRequestHeadFrom, hread1, hpush1, hread2, hpush2, hread3, hpush3, hread4, hpush4]
  rfl

/-- However a balancer's frame and a client's request come in: whatever octets the frame is made of, the
connection goes on, and the address is the socket's unless the frame is usable. If the frame is
supported, what is read next is the head that the request has on its own; if it is not, no head can be
read. -/
theorem resolveSource_of_frame (trustedProxies : TrustedProxies) (elapsed : Duration)
    (client : Pieces UInt8) (peerAddr : SocketAddr) (verCmd family : UInt8) (block rest : List UInt8)
    (htrusted : trustedProxies.trusts peerAddr.ip = true) (htime : elapsed ≤ proxyHeaderTimeout)
    (hlength : block.length < 65536) (hbytes : client.bytes = v2Frame verCmd family block ++ rest) :
    ∃ left source, resolveSource trustedProxies elapsed client peerAddr = some (left, source) ∧
      (¬IsUsable verCmd family block → source = peerAddr) ∧
      (IsSupported verCmd block → ∀ head consumed after,
        readRequestHead [] rest = .ok (head, consumed, after) →
          ∃ left', readRequestHeadFrom [] left maxHeadBytes = .ok (head, consumed, left') ∧
            Reader.Yields left' after) ∧
      (¬IsSupported verCmd block →
        readRequestHeadFrom [] left maxHeadBytes = .error .missingMethod) := by
  by_cases hsupported : IsSupported verCmd block
  · have hheader : client.bytes = v2Header (verCmd &&& 0x0f) family block ++ rest := by
      rw [hbytes, hsupported.v2Frame_eq]
    obtain ⟨left, hread, hleft⟩ :=
      readSourceAddr_of_header (hheader ▸ client.yields) hsupported.2.1 hsupported.2.2
    refine ⟨left, _, resolveSource_of_read htrusted htime hread, ?_, ?_, fun hnot => absurd hsupported hnot⟩
    · intro hunusable
      rw [declaredSource_of_not_complete hsupported.2.1 fun hcomplete =>
        hunusable ⟨hsupported, hcomplete⟩]
      rfl
    · intro _ head consumed after hhead
      exact readRequestHeadFrom_of_yields hleft (by decide) (Nat.le_add_left _ _) hhead
  · obtain ⟨left, hread, hleft⟩ :=
      readSourceAddr_of_not_supported (hbytes ▸ client.yields) hlength hsupported
    refine ⟨left, _, resolveSource_of_read htrusted htime hread, fun _ => rfl,
      fun hyes => absurd hyes hsupported, fun _ => ?_⟩
    rw [v2Frame, List.append_assoc, List.append_assoc, List.append_assoc] at hleft
    exact readRequestHeadFrom_of_signature hleft

/-- A client's request behind a header frame of the balancer, in two pieces. -/
def behindFrame (verCmd : UInt8) : Pieces UInt8 :=
  ⟨[v2Frame verCmd 0x00 [], sampleRequest], by
    simp [v2Frame, v2Signature]
    decide +kernel⟩

/-- The head of the sample request. -/
def sampleHead : RequestHead :=
  { method := "GET", target := "/", host := none, isWebsocketUpgrade := true }

/-- A connection that the balancer opens for itself: the header is taken off, the address stays and the
request is read. -/
theorem resolveSource_of_frame_local :
    ∃ left source left', resolveSource balancers 0 (behindFrame 0x20) balancerAddr = some (left, source) ∧
      source = balancerAddr ∧
      readRequestHeadFrom [] left maxHeadBytes = .ok (sampleHead, sampleRequest, left') := by
  obtain ⟨left, source, hresolve, hsource, hsupported, -⟩ :=
    resolveSource_of_frame balancers 0 (behindFrame 0x20) balancerAddr 0x20 0x00 [] sampleRequest
      (by decide) (by decide) (by decide) (by simp [behindFrame, Pieces.bytes])
  obtain ⟨left', hread, -⟩ := hsupported (by decide) sampleHead sampleRequest [] (by decide +kernel)
  exact ⟨left, source, left', hresolve, hsource (by decide), hread⟩

/-- A header of another version or with another command is put back, and no request head can be read
behind it, although the request has one on its own. -/
theorem exists_frame_without_head :
    readRequestHead [] sampleRequest = .ok (sampleHead, sampleRequest, []) ∧
    (∃ left, resolveSource balancers 0 (behindFrame 0x31) balancerAddr = some (left, balancerAddr) ∧
      readRequestHeadFrom [] left maxHeadBytes = .error .missingMethod) ∧
    ∃ left, resolveSource balancers 0 (behindFrame 0x22) balancerAddr = some (left, balancerAddr) ∧
      readRequestHeadFrom [] left maxHeadBytes = .error .missingMethod := by
  refine ⟨by decide +kernel, ⟨_, rfl, rfl⟩, _, rfl, rfl⟩

end DigRelay
