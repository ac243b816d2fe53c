import DigRelay.Config
import DigRelay.HttpServe
import DigRelay.ProxyProtocol

/-!
# From the socket to the handshake

A fresh connection is first asked where it really comes from, which may take a header off its stream.
Then its request head is read byte by byte. For an upgrade the bytes of the head are put back in
front of the stream, and the WebSocket handshake reads them again.
-/

namespace DigRelay

open Common

variable {S : Type*} [Reader S UInt8]

/-- How long a trusted proxy may take to send its header. -/
def proxyHeaderTimeout : Duration := Duration.fromSecs 5

/-- The stream to go on with and the source address, or nothing when the connection is given up.
Reading the header, where one is read, takes the time `elapsed`. -/
def resolveSource (trustedProxies : TrustedProxies) (elapsed : Duration) (stream : S)
    (peerAddr : SocketAddr) : Option (PrefixedStream S × SocketAddr) :=
  if !trustedProxies.trusts peerAddr.ip then some (PrefixedStream.new [] stream, peerAddr)
  else if elapsed ≤ proxyHeaderTimeout then
    (readSourceAddr stream).map fun (declared, stream) => (stream, declared.getD peerAddr)
  else none

/-- A trusted proxy whose header is read in time gives the declared address, or else its own. -/
theorem resolveSource_of_read {trustedProxies : TrustedProxies} {elapsed : Duration} {stream : S}
    {peerAddr : SocketAddr} {declared : Option SocketAddr} {left : PrefixedStream S}
    (htrusted : trustedProxies.trusts peerAddr.ip = true) (htime : elapsed ≤ proxyHeaderTimeout)
    (hread : readSourceAddr stream = some (declared, left)) :
    resolveSource trustedProxies elapsed stream peerAddr = some (left, declared.getD peerAddr) := by
  have hasked : ¬(!trustedProxies.trusts peerAddr.ip) = true := by simp [htrusted]
  rw [resolveSource, if_neg hasked, if_pos htime, hread, Option.map_some]

/-- A stream with the bytes of a request head put back in front. -/
abbrev Prefixed (S : Type*) := Replay S UInt8

/-- Put the bytes of a head back in front of a stream. -/
def Prefixed.new (prefixBytes : List UInt8) (inner : S) : Prefixed S :=
  { front := prefixBytes, pos := 0, inner }

/-- Read a head off a stream into a one-byte buffer, returning the bytes it took. The fuel is a bound
on the bytes of the head. -/
def readRequestHeadFrom (buffer : List UInt8) (stream : S) :
    ℕ → Except HeadError (RequestHead × List UInt8 × S)
  | 0 => .error .tooLong
  | fuel + 1 =>
    let got := Reader.read stream 1
    match got.1 with
    | [] => .error .unexpectedEof
    | byte :: _ =>
      match pushByte buffer byte with
      | .reading buffer => readRequestHeadFrom buffer got.2 fuel
      | .done outcome => outcome.map fun head => (head, buffer ++ [byte], got.2)

/-- The stream the handshake reads, for a head that asks for an upgrade. -/
def handshakeStream (stream : S) : Except HeadError (Option (Prefixed S)) :=
  (readRequestHeadFrom [] stream maxHeadBytes).map fun (head, consumed, stream) =>
    if head.isWebsocketUpgrade then some (Prefixed.new consumed stream) else none

/-- A head that is read on has room for another byte. -/
theorem pushByte_reading {buffer longer : List UInt8} {byte : UInt8}
    (h : pushByte buffer byte = .reading longer) :
    longer = buffer ++ [byte] ∧ longer.length < maxHeadBytes := by
  simp only [pushByte] at h
  split at h
  · cases h
  · split at h
    · cases h
    · rename_i hshort
      obtain rfl := HeadRead.reading.inj h
      exact ⟨rfl, not_le.mp hshort⟩

/-- A one-byte read of a stream that yields a byte takes that byte. -/
theorem read_one_of_yields {stream : S} {byte : UInt8} {bytes : List UInt8}
    (h : Reader.Yields stream (byte :: bytes)) :
    (Reader.read stream 1).1 = [byte] ∧ Reader.Yields (Reader.read stream 1).2 bytes := by
  obtain ⟨rest, hrest, hyields, hend⟩ := h.read 1
  have hlength := Reader.length_read_le stream 1
  cases hgot : (Reader.read stream 1).1 with
  | nil => cases hend one_pos hgot
  | cons first more =>
    rw [hgot, List.length_cons] at hlength
    obtain rfl := List.length_eq_zero_iff.mp (by omega : more.length = 0)
    rw [hgot] at hrest
    obtain ⟨rfl, rfl⟩ := List.cons.inj hrest
    exact ⟨rfl, hyields⟩

/-- Reading a head off a stream is reading it off the bytes the stream yields. -/
theorem readRequestHeadFrom_of_yields {stream : S} {buffer bytes consumed rest : List UInt8}
    {head : RequestHead} {fuel : ℕ} (h : Reader.Yields stream bytes)
    (hroom : buffer.length < maxHeadBytes) (hfuel : maxHeadBytes ≤ buffer.length + fuel)
    (hread : readRequestHead buffer bytes = .ok (head, consumed, rest)) :
    ∃ left, readRequestHeadFrom buffer stream fuel = .ok (head, consumed, left) ∧
      Reader.Yields left rest := by
  induction fuel generalizing buffer bytes stream with
  | zero => exact absurd hroom (not_lt.mpr hfuel)
  | succ fuel ih =>
    cases bytes with
    | nil => cases hread
    | cons byte bytes =>
      obtain ⟨hgot, hyields⟩ := read_one_of_yields h
      simp only [readRequestHead] at hread
      simp only [readRequestHeadFrom, hgot]
      cases hpush : pushByte buffer byte with
      | reading longer =>
        rw [hpush] at hread
        obtain ⟨rfl, hroom'⟩ := pushByte_reading hpush
        refine ih hyields hroom' ?_ hread
        rw [List.length_append, List.length_singleton]
        omega
      | done outcome =>
        rw [hpush] at hread
        cases outcome with
        | error e => cases hread
        | ok found =>
          obtain ⟨rfl, rfl, rfl⟩ : found = head ∧ buffer ++ [byte] = consumed ∧ bytes = rest := by
            simpa [Except.map] using hread
          exact ⟨_, rfl, hyields⟩

end DigRelay
