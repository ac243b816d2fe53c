import DigRelay.Common.Tokens
import DigRelay.HttpServe

/-!
# Connection lines that mean the same

A `Connection` header is a comma list that may be spread over several lines, in any order, and whose
name and tokens may be written in either case. The parser ignores case and reads each line as a list,
but a later `Connection` line replaces what an earlier one said. So two heads that mean the same and ask
for the websocket protocol are classified the same exactly when the last `Connection` line stands for all
of them in both heads or in neither.
-/

namespace DigRelay

open Common

/-- The trimmed value of a line of the given header. -/
def fieldValue (header : List Char) (line : List Char) : Option (List Char) :=
  match splitOnce ':' line with
  | none => none
  | some (name, value) => if eqIgnoreAsciiCase (trim name) header then some (trim value) else none

/-- A list of tokens that names the upgrade. -/
def namesUpgrade (value : List Char) : Bool :=
  (tokens ',' value).any fun token => eqIgnoreAsciiCase token "upgrade".toList

/-- A value that is the websocket protocol. -/
def namesWebsocket (value : List Char) : Bool := eqIgnoreAsciiCase value "websocket".toList

/-- Whether a line asks for an upgrade of the connection, if it is a `Connection` line. -/
def offersUpgrade (line : List Char) : Option Bool :=
  (fieldValue "connection".toList line).map namesUpgrade

/-- Whether a line asks for the websocket protocol, if it is an `Upgrade` line. -/
def offersWebsocket (line : List Char) : Option Bool :=
  (fieldValue "upgrade".toList line).map namesWebsocket

/-- The header lines of a head: those after the request line and before the blank one. -/
def headerLines (bytes : List UInt8) : List (List Char) :=
  match decodeUtf8 bytes with
  | none => []
  | some text => (splitCrlf text).tail.takeWhile (· ≠ [])

/-- The name of a `Connection` line. -/
def IsConnectionName (name : List Char) : Prop :=
  ':' ∉ name ∧ eqIgnoreAsciiCase (trim name) "connection".toList = true

/-- Header lines that mean the same: a `Connection` list may be spread over two lines, a `Connection`
line may stand elsewhere, and letters may change their case. -/
inductive SameHeaders : List (List Char) → List (List Char) → Prop
  | split {name name' : List Char} (hname : IsConnectionName name) (hname' : IsConnectionName name')
      (value value' : List Char) (before after : List (List Char)) :
      SameHeaders (before ++ (name ++ ':' :: (value ++ ',' :: value')) :: after)
        (before ++ (name ++ ':' :: value) :: (name' ++ ':' :: value') :: after)
  | move {line : List Char} (hline : (offersUpgrade line).isSome)
      (other : List Char) (before after : List (List Char)) :
      SameHeaders (before ++ line :: other :: after) (before ++ other :: line :: after)
  | recase {lines lines' : List (List Char)}
      (h : List.Forall₂ (fun line line' => eqIgnoreAsciiCase line line' = true) lines lines') :
      SameHeaders lines lines'
  | symm {lines lines' : List (List Char)} (h : SameHeaders lines lines') : SameHeaders lines' lines
  | trans {lines lines' lines'' : List (List Char)} (h : SameHeaders lines lines')
      (h' : SameHeaders lines' lines'') : SameHeaders lines lines''

/-- The last `Connection` line names the upgrade if any does. -/
def LastNamesUpgrade (lines : List (List Char)) : Prop :=
  true ∈ lines.filterMap offersUpgrade → (lines.filterMap offersUpgrade).getLast? = some true

/-- The last `Upgrade` line names the websocket protocol. -/
def AsksWebsocket (lines : List (List Char)) : Prop :=
  (lines.filterMap offersWebsocket).getLast? = some true

/-- Lowering a line lowers the value of its header. -/
theorem fieldValue_map_asciiLower (header line : List Char) :
    fieldValue header (line.map asciiLower) = (fieldValue header line).map (List.map asciiLower) := by
  rw [fieldValue, fieldValue, splitOnce_map_asciiLower (by decide)]
  cases splitOnce ':' line with
  | none => rfl
  | some parts =>
    simp only [Option.map_some, Prod.map_fst, Prod.map_snd, trim_map_asciiLower,
      eqIgnoreAsciiCase_map_asciiLower]
    split <;> rfl

/-- Lowering a list does not change whether it names the upgrade. -/
theorem namesUpgrade_map_asciiLower (value : List Char) :
    namesUpgrade (value.map asciiLower) = namesUpgrade value := by
  rw [namesUpgrade, tokens_map_asciiLower (by decide), List.any_map, namesUpgrade]
  congr 1
  funext token
  exact eqIgnoreAsciiCase_map_asciiLower token _

/-- Two lists in a row name the upgrade if one of them does. -/
theorem namesUpgrade_append_cons (value value' : List Char) :
    namesUpgrade (trim (value ++ ',' :: value')) =
      (namesUpgrade (trim value) || namesUpgrade (trim value')) := by
  have hcomma : isWhitespace ',' = false := by decide
  simp only [namesUpgrade, tokens_trim hcomma, tokens_append_cons, List.any_append]

/-- A line has the name of at most one header. -/
theorem eqIgnoreAsciiCase_ne {name header other : List Char}
    (hne : header.map asciiLower ≠ other.map asciiLower) (h : eqIgnoreAsciiCase name header = true) :
    ¬eqIgnoreAsciiCase name other = true := by
  intro hother
  exact hne ((of_decide_eq_true h).symm.trans (of_decide_eq_true hother))

/-- A `Connection` line is not an `Upgrade` line. -/
theorem offersWebsocket_eq_none {line : List Char} (h : (offersUpgrade line).isSome) :
    offersWebsocket line = none := by
  unfold offersUpgrade fieldValue at h
  unfold offersWebsocket fieldValue
  cases hsplit : splitOnce ':' line with
  | none => rfl
  | some parts =>
    rw [hsplit] at h
    dsimp only at h ⊢
    by_cases hname : eqIgnoreAsciiCase (trim parts.1) "connection".toList = true
    · rw [if_neg (eqIgnoreAsciiCase_ne (by decide) hname), Option.map_none]
    · rw [if_neg hname] at h
      cases h

/-- What a `Connection` line says. -/
theorem offersUpgrade_connection {name : List Char} (hname : IsConnectionName name) (value : List Char) :
    offersUpgrade (name ++ ':' :: value) = some (namesUpgrade (trim value)) := by
  rw [offersUpgrade, fieldValue, splitOnce_append_cons hname.1]
  dsimp only
  rw [if_pos hname.2, Option.map_some]

/-- Lines that differ in case offer the same. -/
theorem offers_of_eqIgnoreAsciiCase {line line' : List Char} (h : eqIgnoreAsciiCase line line' = true) :
    offersUpgrade line = offersUpgrade line' ∧ offersWebsocket line = offersWebsocket line' := by
  have hlower : line.map asciiLower = line'.map asciiLower := of_decide_eq_true h
  have hupgrade (text : List Char) : offersUpgrade (text.map asciiLower) = offersUpgrade text := by
    rw [offersUpgrade, fieldValue_map_asciiLower, Option.map_map, offersUpgrade]
    congr 1
    funext value
    exact namesUpgrade_map_asciiLower value
  have hwebsocket (text : List Char) : offersWebsocket (text.map asciiLower) = offersWebsocket text := by
    rw [offersWebsocket, fieldValue_map_asciiLower, Option.map_map, offersWebsocket]
    congr 1
    funext value
    exact eqIgnoreAsciiCase_map_asciiLower value _
  exact ⟨by rw [← hupgrade line, hlower, hupgrade], by rw [← hwebsocket line, hlower, hwebsocket]⟩

/-- A `Connection` line sets whether the upgrade is asked for, an `Upgrade` line whether it is to the
websocket protocol, and every other line leaves both. -/
theorem takeLine_offers (fields : HeadFields) (line : List Char) :
    (fields.takeLine line).connectionUpgrade = (offersUpgrade line).getD fields.connectionUpgrade ∧
      (fields.takeLine line).upgradeWebsocket = (offersWebsocket line).getD fields.upgradeWebsocket := by
  unfold HeadFields.takeLine offersUpgrade offersWebsocket fieldValue
  cases splitOnce ':' line with
  | none => exact ⟨rfl, rfl⟩
  | some parts =>
    dsimp only
    by_cases hconnection : eqIgnoreAsciiCase (trim parts.1) "connection".toList = true
    · have hhost : ¬eqIgnoreAsciiCase (trim parts.1) "host".toList = true :=
        eqIgnoreAsciiCase_ne (by decide) hconnection
      have hupgrade : ¬eqIgnoreAsciiCase (trim parts.1) "upgrade".toList = true :=
        eqIgnoreAsciiCase_ne (by decide) hconnection
      rw [if_neg hhost, if_pos hconnection, if_pos hconnection, if_neg hupgrade, Option.map_some,
        Option.getD_some, namesUpgrade, tokens, List.any_map]
      exact ⟨rfl, rfl⟩
    rw [if_neg hconnection, if_neg hconnection]
    by_cases hupgrade : eqIgnoreAsciiCase (trim parts.1) "upgrade".toList = true
    · have hhost : ¬eqIgnoreAsciiCase (trim parts.1) "host".toList = true :=
        eqIgnoreAsciiCase_ne (by decide) hupgrade
      rw [if_neg hhost, if_pos hupgrade, if_pos hupgrade]
      exact ⟨rfl, rfl⟩
    · rw [if_neg hupgrade, if_neg hupgrade]
      split <;> exact ⟨rfl, rfl⟩

/-- A head is classified by its last `Connection` and its last `Upgrade` line. -/
theorem isWebsocketUpgrade_eq {bytes : List UInt8} {head : RequestHead}
    (h : parseRequestHead bytes = .ok head) :
    head.isWebsocketUpgrade =
      (((headerLines bytes).filterMap offersUpgrade).getLast?.getD false &&
        ((headerLines bytes).filterMap offersWebsocket).getLast?.getD false) := by
  unfold parseRequestHead at h
  unfold headerLines
  cases hdecode : decodeUtf8 bytes with
  | none =>
    rw [hdecode] at h
    cases h
  | some text =>
    rw [hdecode] at h
    dsimp only at h ⊢
    split at h
    · cases h
    · split at h
      · cases h
      · rw [← Except.ok.inj h]
        dsimp only
        rw [foldl_eq_getLast fun fields line => (takeLine_offers fields line).1,
          foldl_eq_getLast fun fields line => (takeLine_offers fields line).2]

/-- The last `Connection` line names the upgrade exactly when some does and the last one stands for all. -/
theorem getLast_offersUpgrade_iff (lines : List (List Char)) :
    (lines.filterMap offersUpgrade).getLast?.getD false = true ↔
      true ∈ lines.filterMap offersUpgrade ∧ LastNamesUpgrade lines := by
  constructor
  · intro hlast
    cases hget : (lines.filterMap offersUpgrade).getLast? with
    | none =>
      rw [hget] at hlast
      cases hlast
    | some offered =>
      rw [hget] at hlast
      obtain rfl : offered = true := hlast
      exact ⟨List.mem_of_getLast? hget, fun _ => hget⟩
  · rintro ⟨hmem, hlast⟩
    rw [hlast hmem, Option.getD_some]

/-- Header lines that mean the same agree on whether some `Connection` line names the upgrade. -/
theorem SameHeaders.mem_upgrade_iff {lines lines' : List (List Char)} (h : SameHeaders lines lines') :
    true ∈ lines.filterMap offersUpgrade ↔ true ∈ lines'.filterMap offersUpgrade := by
  induction h with
  | split hname hname' value value' before after =>
    simp only [List.filterMap_append, List.filterMap_cons_some (offersUpgrade_connection hname _),
      List.filterMap_cons_some (offersUpgrade_connection hname' _), namesUpgrade_append_cons,
      List.mem_append, List.mem_cons, eq_comm (a := true), Bool.or_eq_true, or_assoc]
  | @move line hline other before after =>
    have hswap : (before ++ line :: other :: after).Perm (before ++ other :: line :: after) :=
      (List.Perm.swap _ _ _).append_left before
    exact (hswap.filterMap offersUpgrade).mem_iff
  | recase hcase =>
    have heq : _ = _ := filterMap_eq_of_forall₂ hcase fun line line' hline =>
      (offers_of_eqIgnoreAsciiCase hline).1
    rw [heq]
  | symm h ih => exact ih.symm
  | trans h h' ih ih' => exact ih.trans ih'

/-- Header lines that mean the same have the same `Upgrade` lines. -/
theorem SameHeaders.websocket_eq {lines lines' : List (List Char)} (h : SameHeaders lines lines') :
    lines.filterMap offersWebsocket = lines'.filterMap offersWebsocket := by
  induction h with
  | split hname hname' value value' before after =>
    have hnone {name : List Char} (hname : IsConnectionName name) (value : List Char) :
        offersWebsocket (name ++ ':' :: value) = none := by
      apply offersWebsocket_eq_none
      rw [offersUpgrade_connection hname, Option.isSome_some]
    simp only [List.filterMap_append, List.filterMap_cons_none (hnone hname _),
      List.filterMap_cons_none (hnone hname' _)]
  | move hline other before after =>
    have hnone := offersWebsocket_eq_none hline
    cases hother : offersWebsocket other <;>
      simp only [List.filterMap_append, List.filterMap_cons, hnone, hother]
  | recase hcase =>
    exact filterMap_eq_of_forall₂ hcase fun line line' hline => (offers_of_eqIgnoreAsciiCase hline).2
  | symm h ih => exact ih.symm
  | trans h h' ih ih' => exact ih.trans ih'

/-- A request with the given header lines. -/
def requestWith (lines : List String) : List UInt8 :=
  utf8Bytes (("GET / HTTP/1.1" :: lines ++ [""]).flatMap fun line => line.toList ++ "\r\n".toList)

/-- A list of two tokens and a line for each. -/
theorem sameHeaders_keepAlive_upgrade :
    SameHeaders ["Connection: keep-alive, Upgrade".toList, "Upgrade: websocket".toList]
      ["Connection: keep-alive".toList, "Connection: Upgrade".toList, "Upgrade: websocket".toList] := by
  have hname : IsConnectionName "Connection".toList := by
    constructor <;> decide +kernel
  exact SameHeaders.split hname hname " keep-alive".toList " Upgrade".toList []
    ["Upgrade: websocket".toList]

/-- Two heads whose header lines mean the same are classified the same exactly when their last `Upgrade`
line does not name the websocket protocol, or the last `Connection` line names the upgrade whenever any does
in both of them or in neither. -/
theorem isWebsocketUpgrade_eq_iff_of_same {bytes bytes' : List UInt8} {head head' : RequestHead}
    (hparse : parseRequestHead bytes = .ok head) (hparse' : parseRequestHead bytes' = .ok head')
    (hsame : SameHeaders (headerLines bytes) (headerLines bytes')) :
    head.isWebsocketUpgrade = head'.isWebsocketUpgrade ↔
      (AsksWebsocket (headerLines bytes) →
        (LastNamesUpgrade (headerLines bytes) ↔ LastNamesUpgrade (headerLines bytes'))) := by
  have hvacuous {lines : List (List Char)} (hnone : true ∉ lines.filterMap offersUpgrade) :
      LastNamesUpgrade lines := fun hmem => absurd hmem hnone
  rw [isWebsocketUpgrade_eq hparse, isWebsocketUpgrade_eq hparse', ← hsame.websocket_eq, AsksWebsocket]
  by_cases hasks : ((headerLines bytes).filterMap offersWebsocket).getLast? = some true
  · rw [hasks, Option.getD_some, Bool.and_true, Bool.and_true, Bool.eq_iff_iff, getLast_offersUpgrade_iff,
      getLast_offersUpgrade_iff, ← hsame.mem_upgrade_iff, eq_self_iff_true, true_imp_iff]
    by_cases hmem : true ∈ (headerLines bytes).filterMap offersUpgrade
    · rw [and_iff_right hmem, and_iff_right hmem]
    · exact iff_of_true (by simp only [hmem, false_and])
        (iff_of_true (hvacuous hmem) (hvacuous (hsame.mem_upgrade_iff.not.mp hmem)))
  · have hfalse : ((headerLines bytes).filterMap offersWebsocket).getLast?.getD false = false := by
      cases hlast : ((headerLines bytes).filterMap offersWebsocket).getLast? with
      | none => rfl
      | some offered =>
        rw [hlast] at hasks
        exact Bool.eq_false_iff.mpr fun htrue => hasks (congrArg some htrue)
    rw [hfalse, Bool.and_false, Bool.and_false]
    exact iff_of_true rfl fun hlast => absurd hlast hasks

/-- A list and its two lines in the same order, the second written elsewhere and in other letters. -/
theorem isWebsocketUpgrade_eq_iff_of_same_split :
    ∃ head head',
      parseRequestHead (requestWith ["Connection: keep-alive, Upgrade", "Upgrade: websocket"]) = .ok head ∧
      parseRequestHead
        (requestWith ["Connection: Keep-Alive", "Upgrade: WebSocket", "CONNECTION: upgrade"]) = .ok head' ∧
      head.isWebsocketUpgrade = head'.isWebsocketUpgrade := by
  have hlines : headerLines (requestWith ["Connection: keep-alive, Upgrade", "Upgrade: websocket"]) =
      ["Connection: keep-alive, Upgrade".toList, "Upgrade: websocket".toList] := by decide +kernel
  have hlines' : headerLines
      (requestWith ["Connection: Keep-Alive", "Upgrade: WebSocket", "CONNECTION: upgrade"]) =
      ["Connection: Keep-Alive".toList, "Upgrade: WebSocket".toList, "CONNECTION: upgrade".toList] := by
    decide +kernel
  have hsame : SameHeaders
      (headerLines (requestWith ["Connection: keep-alive, Upgrade", "Upgrade: websocket"]))
      (headerLines
        (requestWith ["Connection: Keep-Alive", "Upgrade: WebSocket", "CONNECTION: upgrade"])) := by
    rw [hlines, hlines']
    apply sameHeaders_keepAlive_upgrade.trans
    apply (@SameHeaders.move "Connection: Upgrade".toList (by decide +kernel)
      "Upgrade: websocket".toList ["Connection: keep-alive".toList] []).trans
    apply SameHeaders.recase
    refine .cons ?_ (.cons ?_ (.cons ?_ .nil)) <;> decide +kernel
  refine ⟨⟨"GET", "/", none, true⟩, ⟨"GET", "/", none, true⟩, by decide +kernel, by decide +kernel, ?_⟩
  refine (isWebsocketUpgrade_eq_iff_of_same (by decide +kernel) (by decide +kernel) hsame).mpr fun _ => ?_
  rw [hlines, hlines']
  unfold LastNamesUpgrade
  decide +kernel

/-- A list that names the upgrade last is one of an upgrade, but its two lines in the other order are not:
the line without the upgrade replaces what the first one said. -/
theorem exists_same_classified_apart :
    ∃ head head',
      parseRequestHead (requestWith ["Connection: keep-alive, Upgrade", "Upgrade: websocket"]) = .ok head ∧
      parseRequestHead
        (requestWith ["Connection: Upgrade", "Connection: keep-alive", "Upgrade: websocket"]) = .ok head' ∧
      SameHeaders
        (headerLines (requestWith ["Connection: keep-alive, Upgrade", "Upgrade: websocket"]))
        (headerLines
          (requestWith ["Connection: Upgrade", "Connection: keep-alive", "Upgrade: websocket"])) ∧
      head.isWebsocketUpgrade = true ∧ head'.isWebsocketUpgrade = false := by
  have hlines : headerLines (requestWith ["Connection: keep-alive, Upgrade", "Upgrade: websocket"]) =
      ["Connection: keep-alive, Upgrade".toList, "Upgrade: websocket".toList] := by decide +kernel
  have hlines' : headerLines
      (requestWith ["Connection: Upgrade", "Connection: keep-alive", "Upgrade: websocket"]) =
      ["Connection: Upgrade".toList, "Connection: keep-alive".toList, "Upgrade: websocket".toList] := by
    decide +kernel
  refine ⟨⟨"GET", "/", none, true⟩, ⟨"GET", "/", none, false⟩, by decide +kernel, by decide +kernel, ?_,
    rfl, rfl⟩
  rw [hlines, hlines']
  apply sameHeaders_keepAlive_upgrade.trans
  exact @SameHeaders.move "Connection: keep-alive".toList (by decide +kernel)
    "Connection: Upgrade".toList [] ["Upgrade: websocket".toList]

end DigRelay
