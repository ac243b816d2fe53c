import DigRelay.Common.Text

/-!
# Request heads

Every connection begins with an HTTP request head, read byte by byte up to the blank line that
ends it. The head decides whether the connection speaks the relay wire, when it asks for a
WebSocket upgrade, or is answered with a page.
-/

namespace DigRelay

open Common

/-- The bound on the bytes of a head. -/
def maxHeadBytes : ℕ := 16 * 1024

/-- What the relay routes on. -/
structure RequestHead where
  method : String
  target : String
  host : Option String
  isWebsocketUpgrade : Bool
  deriving DecidableEq

/-- The target without its query. -/
def RequestHead.path (head : RequestHead) : String :=
  String.ofList (head.target.toList.takeWhile (· ≠ '?'))

/-- Why no head was obtained. -/
inductive HeadError
  | unexpectedEof
  | tooLong
  | nonUtf8
  | missingMethod
  | missingTarget
  deriving DecidableEq

/-- The header fields found so far. -/
structure HeadFields where
  host : Option String := none
  connectionUpgrade : Bool := false
  upgradeWebsocket : Bool := false
  deriving DecidableEq

/-- Take one header line; a later field replaces an earlier one of the same name. -/
def HeadFields.takeLine (fields : HeadFields) (line : List Char) : HeadFields :=
  match splitOnce ':' line with
  | none => fields
  | some (name, value) =>
    let name := trim name
    let value := trim value
    if eqIgnoreAsciiCase name "host".toList then { fields with host := some (String.ofList value) }
    else if eqIgnoreAsciiCase name "connection".toList then
      { fields with
        connectionUpgrade := (value.splitOn ',').any fun token =>
          eqIgnoreAsciiCase (trim token) "upgrade".toList }
    else if eqIgnoreAsciiCase name "upgrade".toList then
      { fields with upgradeWebsocket := eqIgnoreAsciiCase value "websocket".toList }
    else fields

/-- Parse a head that has been read to its end. -/
def parseRequestHead (bytes : List UInt8) : Except HeadError RequestHead :=
  match decodeUtf8 bytes with
  | none => .error .nonUtf8
  | some text =>
    let lines := splitCrlf text
    let parts := (lines.headD []).splitOn ' '
    match (parts[0]?).filter (· ≠ []) with
    | none => .error .missingMethod
    | some method =>
      match (parts[1]?).filter (· ≠ []) with
      | none => .error .missingTarget
      | some target =>
        let fields := (lines.tail.takeWhile (· ≠ [])).foldl HeadFields.takeLine {}
        .ok
          { method := String.ofList (method.map asciiUpper)
            target := String.ofList target
            host := fields.host
            isWebsocketUpgrade := fields.connectionUpgrade && fields.upgradeWebsocket }

/-- The blank line that ends a head. -/
def headEnd : List UInt8 := [0x0d, 0x0a, 0x0d, 0x0a]

/-- How far a head has been read. -/
inductive HeadRead
  | reading (buffer : List UInt8)
  | done (outcome : Except HeadError RequestHead)

/-- Read one more byte of a head. -/
def pushByte (buffer : List UInt8) (byte : UInt8) : HeadRead :=
  let buffer := buffer ++ [byte]
  if headEnd.isSuffixOf buffer then .done (parseRequestHead buffer)
  else if buffer.length ≥ maxHeadBytes then .done (.error .tooLong)
  else .reading buffer

/-- Read a head off a stream that ends after the given bytes, returning what it consumed and
what it left. -/
def readRequestHead (buffer : List UInt8) :
    List UInt8 → Except HeadError (RequestHead × List UInt8 × List UInt8)
  | [] => .error .unexpectedEof
  | byte :: rest =>
    match pushByte buffer byte with
    | .reading buffer => readRequestHead buffer rest
    | .done outcome => outcome.map fun head => (head, buffer ++ [byte], rest)

/-- One header line of a response with its end. -/
def headerLine (name value : String) : List Char :=
  name.toList ++ ": ".toList ++ value.toList ++ "\r\n".toList

/-- The head of a response: the status line, the given headers, and those every response ends with. -/
def responseHead (status : ℕ) (reason : String) (headers : List (String × String)) (bodyLen : ℕ) :
    List Char :=
  "HTTP/1.1 ".toList ++ (toString status).toList ++ " ".toList ++ reason.toList ++ "\r\n".toList ++
    (headers.flatMap fun header => headerLine header.1 header.2) ++
    "Content-Length: ".toList ++ (toString bodyLen).toList ++ "\r\n".toList ++
    "Connection: close\r\n\r\n".toList

/-- The bytes of a response. -/
def writeResponse (status : ℕ) (reason : String) (headers : List (String × String))
    (body : List UInt8) : List UInt8 :=
  utf8Bytes (responseHead status reason headers body.length) ++ body

end DigRelay
