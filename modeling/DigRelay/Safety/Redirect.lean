import DigRelay.Dashboard
import DigRelay.Safety.UpgradeHead

/-!
# What a redirect writes

The plain listener answers with the target and the host of the request. Both are parts of lines of the
request head, which is split where a carriage return is followed by a line feed. A lone one of these is an
ordinary character to the parser and is written into the response. So the response has exactly the lines it
is meant to have as long as the target and the last host contain neither, whatever stands in the rest of
the head.
-/

namespace DigRelay

open Common

/-- A text that ends no line. -/
def IsLineText (text : List Char) : Prop := ∀ c ∈ text, isLineChar c = true

/-- A part of a text that ends no line ends none. -/
theorem IsLineText.mono {text part : List Char} (h : IsLineText text) (hpart : part ⊆ text) :
    IsLineText part :=
  fun c hc => h c (hpart hc)

/-- The target that the request line of a head names: its second part. -/
def requestTarget (bytes : List UInt8) : List Char :=
  match decodeUtf8 bytes with
  | none => []
  | some text => (((splitCrlf text).headD []).splitOn ' ').getD 1 []

/-- The value of the last `Host` line of a head. -/
def lastHost (bytes : List UInt8) : Option (List Char) :=
  ((headerLines bytes).filterMap (fieldValue "host".toList)).getLast?

/-- A `Host` line sets the host, and every other line leaves it. -/
theorem takeLine_host (fields : HeadFields) (line : List Char) :
    (fields.takeLine line).host =
      ((fieldValue "host".toList line).map fun host => some (String.ofList host)).getD fields.host := by
  unfold HeadFields.takeLine fieldValue
  cases splitOnce ':' line with
  | none => rfl
  | some parts =>
    dsimp only
    split
    · rfl
    · split
      · rfl
      · split <;> rfl

/-- An accepted head has the target of its request line and the host of its last `Host` line. -/
theorem parseRequestHead_fields {bytes : List UInt8} {head : RequestHead}
    (h : parseRequestHead bytes = .ok head) :
    head.target.toList = requestTarget bytes ∧ head.host = (lastHost bytes).map String.ofList := by
  unfold parseRequestHead at h
  unfold requestTarget lastHost headerLines
  cases hdecode : decodeUtf8 bytes with
  | none =>
    rw [hdecode] at h
    cases h
  | some text =>
    rw [hdecode] at h
    dsimp only at h ⊢
    split at h
    · cases h
    · split at h
      · cases h
      · rename_i target htarget
        obtain ⟨hpart, -⟩ := Option.filter_eq_some_iff.mp htarget
        rw [← Except.ok.inj h]
        dsimp only
        constructor
        · rw [String.toList_ofList, List.getD_eq_getElem?_getD, hpart, Option.getD_some]
        · rw [foldl_eq_getLast takeLine_host, ← List.map_filterMap, List.getLast?_map]
          cases (List.filterMap (fieldValue "host".toList) _).getLast? <;> rfl

/-- The value of a header line is a part of it. -/
theorem fieldValue_subset {header line value : List Char} (h : fieldValue header line = some value) :
    value ⊆ line := by
  unfold fieldValue at h
  split at h
  · cases h
  · rename_i hsplit
    rw [Option.ite_none_right_eq_some] at h
    obtain ⟨-, h⟩ := h
    rw [← Option.some.inj h]
    exact List.Subset.trans (trim_subset _) (splitOnce_subset hsplit).2

/-- The target and the last host of a head with paired line ends contain none. -/
theorem isLineText_of_paired {bytes : List UInt8} {text : List Char} (htext : decodeUtf8 bytes = some text)
    (hpaired : hasPairedLineEnds text = true) :
    IsLineText (requestTarget bytes) ∧ ∀ host ∈ lastHost bytes, IsLineText host := by
  have hlines : ∀ line ∈ splitCrlf text, IsLineText line := fun line hline =>
    isLineChar_of_mem_splitCrlf hpaired hline
  constructor
  · rw [requestTarget, htext]
    dsimp only
    have hfirst : IsLineText ((splitCrlf text).headD []) := by
      cases hsplit : splitCrlf text with
      | nil => simp [IsLineText]
      | cons first rest => exact hlines first (hsplit ▸ List.mem_cons_self)
    rw [List.getD_eq_getElem?_getD]
    cases hpart : (((splitCrlf text).headD []).splitOn ' ')[1]? with
    | none => simp [IsLineText]
    | some part => exact hfirst.mono (subset_of_mem_splitOn (List.mem_of_getElem? hpart))
  · intro host hhost
    obtain ⟨line, hline, hvalue⟩ := List.mem_filterMap.mp (List.mem_of_getLast? hhost)
    rw [headerLines, htext] at hline
    have hmem := List.mem_of_mem_tail ((List.takeWhile_sublist _).subset hline)
    exact (hlines line hmem).mono (fieldValue_subset hvalue)

/-- The lines of a redirect: the status line, the three headers and the blank line that ends them. -/
def redirectLines (location : List Char) : List (List Char) :=
  ["HTTP/1.1 301 Moved Permanently".toList, "Location: ".toList ++ location,
    "Content-Length: 0".toList, "Connection: close".toList, []]

/-- Each line with its end. -/
def endLines (lines : List (List Char)) : List Char := lines.flatMap fun line => line ++ ['\r', '\n']

/-- The bytes of a redirect are those of its lines. -/
theorem redirectResponse_eq (location : String) :
    redirectResponse location = utf8Bytes (endLines (redirectLines location.toList)) := by
  have hstatus : "HTTP/1.1 ".toList ++ (toString 301).toList ++ " ".toList ++ "Moved Permanently".toList =
      "HTTP/1.1 301 Moved Permanently".toList := by decide +kernel
  have hname : "Location".toList ++ ": ".toList = "Location: ".toList := by decide +kernel
  have hlength (rest : List Char) : "Content-Length: ".toList ++ ((toString 0).toList ++ rest) =
      "Content-Length: 0".toList ++ rest := by
    rw [← List.append_assoc]
    congr 1
  have hclose : "Connection: close\r\n\r\n".toList =
      "Connection: close".toList ++ ['\r', '\n', '\r', '\n'] := by decide +kernel
  have hend : "\r\n".toList = ['\r', '\n'] := by decide +kernel
  unfold redirectResponse writeResponse responseHead headerLine
  rw [hstatus]
  simp only [List.flatMap_cons, List.flatMap_nil, List.append_nil]
  rw [hname, hclose, hend]
  simp only [List.append_assoc, List.length_nil, hlength, endLines, redirectLines, List.flatMap_cons,
    List.flatMap_nil, List.append_nil, List.nil_append, List.cons_append]

/-- The bytes of a text without line ends contain none. -/
theorem IsLineText.bytes {text : List Char} (h : IsLineText text) :
    0x0d ∉ utf8Bytes text ∧ 0x0a ∉ utf8Bytes text := by
  constructor
  · intro hmem
    cases h _ (mem_of_mem_utf8Bytes (by decide) hmem)
  · intro hmem
    cases h _ (mem_of_mem_utf8Bytes (by decide) hmem)

/-- A location without line ends leaves every line of the redirect without any. -/
theorem isLineText_redirectLines {location : List Char} (h : IsLineText location) :
    ∀ line ∈ redirectLines location, IsLineText line := by
  have hclosed : ∀ line ∈ ["HTTP/1.1 301 Moved Permanently".toList, "Location: ".toList,
      "Content-Length: 0".toList, "Connection: close".toList, []], line.all isLineChar = true := by
    decide +kernel
  simp only [List.forall_mem_cons, List.all_eq_true] at hclosed
  obtain ⟨hstatus, hname, hlength, hclose, hblank, -⟩ := hclosed
  simp only [redirectLines, List.forall_mem_cons]
  refine ⟨hstatus, ?_, hlength, hclose, hblank, by simp⟩
  intro c hc
  rcases List.mem_append.mp hc with hfront | hback
  · exact hname c hfront
  · exact h c hback

/-- What a redirect should be: one status line, the headers `Location`, `Content-Length` and `Connection`
and a blank line, where no line contains a carriage return or line feed, so that splitting what is written
at its line ends gives exactly these lines. -/
structure RedirectIntact (location : String) : Prop where
  written : redirectResponse location = utf8Bytes (endLines (redirectLines location.toList))
  clean : ∀ line ∈ redirectLines location.toList, 0x0d ∉ utf8Bytes line ∧ 0x0a ∉ utf8Bytes line
  split : splitCrlf (endLines (redirectLines location.toList)) = redirectLines location.toList ++ [[]]

/-- A text whose bytes contain no line end contains none. -/
theorem isLineText_of_bytes {text : List Char} (h : 0x0d ∉ utf8Bytes text ∧ 0x0a ∉ utf8Bytes text) :
    IsLineText text := by
  have hbyte {c : Char} {byte : UInt8} (hmem : c ∈ text) (hc : String.utf8EncodeChar c = [byte]) :
      byte ∈ utf8Bytes text := by
    refine List.mem_flatMap.mpr ⟨c, hmem, ?_⟩
    rw [hc]
    exact List.mem_singleton_self byte
  intro c hmem
  simp only [isLineChar, ne_eq, Bool.and_eq_true, decide_eq_true_eq]
  constructor
  · rintro rfl
    exact h.1 (hbyte hmem (by decide))
  · rintro rfl
    exact h.2 (hbyte hmem (by decide))

/-- A redirect is intact exactly when its location contains no line end. -/
theorem redirectIntact_iff (location : String) :
    RedirectIntact location ↔ IsLineText location.toList := by
  constructor
  · intro hintact
    have hline : "Location: ".toList ++ location.toList ∈ redirectLines location.toList :=
      List.mem_cons_of_mem _ List.mem_cons_self
    exact (isLineText_of_bytes (hintact.clean _ hline)).mono (List.subset_append_right _ _)
  · intro hlocation
    have hlines := isLineText_redirectLines hlocation
    refine ⟨redirectResponse_eq location, fun line hline => (hlines line hline).bytes, ?_⟩
    apply splitCrlf_flatMap
    intro line hline hreturn
    cases hlines line hline '\r' hreturn

/-- The location contains a line end exactly when the target or the host does. -/
theorem isLineText_httpsLocation_iff (head : RequestHead) :
    IsLineText (httpsLocation head).toList ↔
      IsLineText head.target.toList ∧ ∀ host ∈ head.host, IsLineText host.toList := by
  have hscheme : IsLineText "https://".toList := List.all_eq_true.mp (by decide +kernel)
  have hdefault : IsLineText "relay.dig.net".toList := List.all_eq_true.mp (by decide +kernel)
  have hparts (host : String) : IsLineText ("https://" ++ host ++ head.target).toList ↔
      IsLineText host.toList ∧ IsLineText head.target.toList := by
    simp only [IsLineText, String.toList_append, List.forall_mem_append]
    exact and_congr_left fun _ => and_iff_right hscheme
  rw [httpsLocation, hparts, and_comm]
  cases head.host with
  | none => exact and_congr_right fun _ => iff_of_true hdefault fun _ hnone => nomatch hnone
  | some host => simp

/-- For every accepted head that is redirected, the redirect is intact exactly when neither the target of
the request line nor the last `Host` value contains a carriage return or line feed. In particular it is
when these two occur in the head only together. -/
theorem redirect_intact_iff (bytes : List UInt8) (head : RequestHead) (stunPort : UInt16)
    (location : String) (hparse : parseRequestHead bytes = .ok head)
    (hredirect : decideRedirect head stunPort = .redirect location) :
    (RedirectIntact location ↔
      IsLineText (requestTarget bytes) ∧ ∀ host ∈ lastHost bytes, IsLineText host) ∧
    ∀ text, decodeUtf8 bytes = some text → hasPairedLineEnds text = true → RedirectIntact location := by
  obtain ⟨htarget, hhost⟩ := parseRequestHead_fields hparse
  have hlocation : location = httpsLocation head := by
    unfold decideRedirect at hredirect
    split at hredirect
    · cases hredirect
    · exact (RedirectAction.redirect.inj hredirect).symm
  have hintact : RedirectIntact location ↔
      IsLineText (requestTarget bytes) ∧ ∀ host ∈ lastHost bytes, IsLineText host := by
    rw [redirectIntact_iff, hlocation, isLineText_httpsLocation_iff, htarget, hhost]
    simp
  exact ⟨hintact, fun text htext hpaired => hintact.mpr (isLineText_of_paired htext hpaired)⟩

/-- A lone line feed in another header does no harm. -/
theorem redirect_intact_iff_unrelated :
    RedirectIntact "https://relay.dig.net/stats.json?full=1" := by
  have hparse : parseRequestHead (utf8Bytes
      "GET /stats.json?full=1 HTTP/1.1\r\nHost: relay.dig.net\r\nX-Foo: b\nc\r\n\r\n".toList) = .ok
        { method := "GET", target := "/stats.json?full=1", host := some "relay.dig.net",
          isWebsocketUpgrade := false } := by decide +kernel
  have hredirect := redirect_intact_iff _ _ 3478 "https://relay.dig.net/stats.json?full=1" hparse
    (by decide +kernel)
  refine hredirect.1.mpr ⟨List.all_eq_true.mp (by decide +kernel), ?_⟩
  have hhost : lastHost (utf8Bytes
      "GET /stats.json?full=1 HTTP/1.1\r\nHost: relay.dig.net\r\nX-Foo: b\nc\r\n\r\n".toList) =
        some "relay.dig.net".toList := by decide +kernel
  rw [hhost]
  intro host hmem
  obtain rfl := Option.some.inj hmem
  exact List.all_eq_true.mp (by decide +kernel)

/-- A lone line feed in the host, or a lone carriage return in the target, is part of the location that is
written: here the response contains a further header after a line feed. -/
theorem exists_redirect_split :
    (∃ head location,
      parseRequestHead (utf8Bytes "GET / HTTP/1.1\r\nHost: a\nSet-Cookie: s\r\n\r\n".toList) = .ok head ∧
        decideRedirect head 3478 = .redirect location ∧ 0x0a ∈ utf8Bytes location.toList ∧
        utf8Bytes "\nSet-Cookie: s/\r\n".toList <:+: redirectResponse location) ∧
    ∃ head location, parseRequestHead (utf8Bytes "GET /\r HTTP/1.1\r\n\r\n".toList) = .ok head ∧
      decideRedirect head 3478 = .redirect location ∧ 0x0d ∈ utf8Bytes location.toList := by
  constructor
  · refine ⟨{ method := "GET", target := "/", host := some "a\nSet-Cookie: s", isWebsocketUpgrade := false },
      "https://a\nSet-Cookie: s/", ?_, ?_, ?_, ?_⟩ <;> decide +kernel
  · refine ⟨{ method := "GET", target := "/\r", host := none, isWebsocketUpgrade := false },
      "https://relay.dig.net/\r", ?_, ?_, ?_⟩ <;> decide +kernel

end DigRelay
