import DigRelay.Common.HttpResponse
import DigRelay.Safety.Availability
import DigRelay.Server.Script

/-!
# What the dashboard writes

The dashboard takes a page by the path of the request and, on the STUN host, puts the host into the page.
The status line and the headers are fixed texts, and the length of the body is written last. So a reader
of what is written finds one response with this body, however the request was put together. A redirect is
different: its location is a header, and line ends that reach it are seen by the reader.
-/

namespace DigRelay

open Common

/-- The headers of a response together with those that are written after them. -/
def sentFields (headers : List (String × String)) (bodyLen : ℕ) : List (String × String) :=
  headers ++ [("Content-Length", toString bodyLen), ("Connection", "close")]

/-- The bytes of a line with its end. -/
theorem utf8Bytes_endLine (line : List Char) : utf8Bytes (line ++ "\r\n".toList) = lineBytes line := by
  have hend : utf8Bytes "\r\n".toList = [0x0d, 0x0a] := by decide +kernel
  rw [lineBytes, ← hend, utf8Bytes_append]

/-- The bytes of a header line are those of the line of the field. -/
theorem utf8Bytes_headerLine (header : String × String) :
    utf8Bytes (headerLine header.1 header.2) = lineBytes (fieldText header) := by
  have hsep : ": ".toList = [':', ' '] := by decide +kernel
  rw [headerLine, utf8Bytes_endLine, hsep, fieldText, List.append_assoc]
  rfl

/-- The head of a response, line by line. -/
theorem responseHead_eq (status : ℕ) (reason : String) (headers : List (String × String)) (bodyLen : ℕ) :
    responseHead status reason headers bodyLen =
      (statusText status reason ++ "\r\n".toList) ++
        ((sentFields headers bodyLen).flatMap fun header => headerLine header.1 header.2) ++
          ([] ++ "\r\n".toList) := by
  have hversion : "HTTP/1.1 ".toList = "HTTP/1.1".toList ++ [' '] := by decide +kernel
  have hblank : " ".toList = [' '] := by decide +kernel
  have hlength : "Content-Length: ".toList = "Content-Length".toList ++ ": ".toList := by decide +kernel
  have hclose : "Connection: close\r\n\r\n".toList = "Connection".toList ++ (": ".toList ++
      ("close".toList ++ ("\r\n".toList ++ "\r\n".toList))) := by decide +kernel
  unfold responseHead sentFields statusText headerLine
  simp only [hversion, hblank, hlength, hclose, toList_toString status]
  simp only [List.flatMap_append, List.flatMap_cons, List.flatMap_nil, List.append_assoc,
    List.cons_append, List.nil_append, List.append_nil]

/-- What is written for a response are its lines, a blank one and the body. -/
theorem writeResponse_eq_lines (status : ℕ) (reason : String) (headers : List (String × String))
    (body : List UInt8) :
    writeResponse status reason headers body =
      (statusText status reason :: (sentFields headers body.length).map fieldText).flatMap lineBytes ++
        lineBytes [] ++ body := by
  have hheaders : utf8Bytes ((sentFields headers body.length).flatMap fun header =>
      headerLine header.1 header.2) =
        ((sentFields headers body.length).map fieldText).flatMap lineBytes := by
    rw [utf8Bytes, List.flatMap_assoc, List.flatMap_map]
    exact List.flatMap_congr fun header _ => utf8Bytes_headerLine header
  rw [writeResponse, responseHead_eq, utf8Bytes_append, utf8Bytes_append, hheaders, utf8Bytes_endLine,
    utf8Bytes_endLine, List.flatMap_cons]

/-- A head that a reader takes as it is meant: three digits of status, no line broken, and no length but
the one that is written. -/
def HasPlainHead (response : DashboardResponse) : Prop :=
  response.status < 1000 ∧ '\r' ∉ response.reason.toList ∧
    ∀ header ∈ response.headers, WritableField header ∧ isContentLength header = false

instance (response : DashboardResponse) : Decidable (HasPlainHead response) :=
  inferInstanceAs (Decidable (_ ∧ _ ∧ _))

/-- A page has a plain head, whatever its body is. -/
theorem okHtml_hasPlainHead (body : Body) : HasPlainHead (okHtml body) := by
  -- the head does not mention the body, so one body decides it for all
  have hhead : HasPlainHead (okHtml (.text "")) := by decide +kernel
  exact hhead

/-- A JSON document has a plain head, whatever its body is. -/
theorem okJson_hasPlainHead (body : Body) : HasPlainHead (okJson body) := by
  have hhead : HasPlainHead (okJson (.text "")) := by decide +kernel
  exact hhead

/-- The head of a response does not depend on the request beyond the choice of the page. -/
theorem route_hasPlainHead (path : String) (snapshot : StatsSnapshot) (mapSnapshot : MapSnapshot)
    (dhtView : DhtView) : HasPlainHead (route path snapshot mapSnapshot dhtView) := by
  unfold route
  split_ifs
  all_goals first
    | exact okHtml_hasPlainHead _
    | exact okJson_hasPlainHead _
    | decide +kernel

/-- On the STUN host, too, nothing of the request reaches the head. -/
theorem routeStun_hasPlainHead (path host : String) (stunPort : UInt16) :
    HasPlainHead (routeStun path host stunPort) := by
  unfold routeStun
  split_ifs
  all_goals first
    | exact okHtml_hasPlainHead _
    | exact okJson_hasPlainHead _
    | decide +kernel

/-- The length that is written is the one that is read. -/
theorem contentLength_sentFields {headers : List (String × String)} {bodyLen : ℕ}
    (hheaders : ∀ header ∈ headers, isContentLength header = false) (hbound : bodyLen < UInt64.size) :
    contentLength (sentFields headers bodyLen) = some bodyLen := by
  have hnone : headers.filter isContentLength = [] := by
    rw [List.filter_eq_nil_iff]
    intro header hmem
    rw [hheaders header hmem]
    exact Bool.false_ne_true
  have hname (value : String) : isContentLength ("Content-Length", value) = true := by
    have hclosed : isContentLength ("Content-Length", "") = true := by decide +kernel
    exact hclosed
  have hother : isContentLength ("Connection", "close") = false := by decide +kernel
  have hfilter : (sentFields headers bodyLen).filter isContentLength =
      [("Content-Length", toString bodyLen)] := by
    rw [sentFields, List.filter_append, hnone, List.nil_append, List.filter_cons_of_pos (hname _),
      List.filter_cons_of_neg (by rw [hother]; exact Bool.false_ne_true), List.filter_nil]
  rw [contentLength, hfilter]
  dsimp only
  rw [toList_toString, parseUnsigned_toDigits hbound]

/-- The fields that are written after the headers of a response are read as they are written. -/
theorem writableField_sentFields {headers : List (String × String)} (bodyLen : ℕ)
    (hheaders : ∀ header ∈ headers, WritableField header) :
    ∀ field ∈ sentFields headers bodyLen, WritableField field := by
  have hname : ':' ∉ "Content-Length".toList ∧ '\r' ∉ "Content-Length".toList := by decide +kernel
  have hclose : WritableField ("Connection", "close") := by decide +kernel
  have hlength := writableField_toString hname.1 hname.2 bodyLen
  intro field hfield
  rcases List.mem_append.mp hfield with hheader | hlast
  · exact hheaders field hheader
  rcases List.mem_cons.mp hlast with rfl | hlast
  · exact hlength
  · rw [List.mem_singleton.mp hlast]
    exact hclose

/-- Every response of the dashboard has a plain head. -/
theorem serveHttp_hasPlainHead {config : RelayServerConfig} {geo : Geo} {reads : LiveReads}
    {uptimeSecs nowSecs : ℕ} {head : RequestHead} {response : DashboardResponse}
    (h : serveHttp config geo reads uptimeSecs nowSecs head = some response) : HasPlainHead response := by
  unfold serveHttp at h
  split at h
  · obtain rfl := Option.some.inj h
    exact routeStun_hasPlainHead _ _ _
  · obtain ⟨snapshot, -, rfl⟩ := Option.map_eq_some_iff.mp h
    exact route_hasPlainHead _ _ _ _

/-- Every response that the plain listener serves has a plain head. -/
theorem decideRedirect_hasPlainHead {head : RequestHead} {stunPort : UInt16}
    {response : DashboardResponse} (h : decideRedirect head stunPort = .serve response) :
    HasPlainHead response := by
  unfold decideRedirect at h
  split at h
  · obtain rfl := RedirectAction.serve.inj h
    exact routeStun_hasPlainHead _ _ _
  · cases h

/-- Whatever a request contains, and whatever its answer is rendered to, a reader of what either listener
serves finds the response: its status, its headers, and a body of the length that was written. Nothing of
what follows on the stream is taken for a part of it. -/
theorem served_response_read_back (config : RelayServerConfig) (geo : Geo) (reads : LiveReads)
    (uptimeSecs nowSecs : ℕ) (head : RequestHead) (stunPort : UInt16) (response : DashboardResponse)
    (hserved : serveHttp config geo reads uptimeSecs nowSecs head = some response ∨
      decideRedirect head stunPort = .serve response)
    (render : Body → List UInt8) (hbody : (render response.body).length < UInt64.size)
    (rest : List UInt8) :
    readResponse (writeDashboardResponse render response ++ rest) =
      some
        ({ status := response.status
           reason := response.reason
           fields := response.headers ++
             [("Content-Length", toString (render response.body).length), ("Connection", "close")]
           body := render response.body }, rest) := by
  have hplain : HasPlainHead response := by
    rcases hserved with hdashboard | hlistener
    · exact serveHttp_hasPlainHead hdashboard
    · exact decideRedirect_hasPlainHead hlistener
  obtain ⟨hstatus, hreason, hheaders⟩ := hplain
  rw [writeDashboardResponse, writeResponse_eq_lines, List.append_assoc]
  exact readResponse_of_lines hstatus hreason
    (writableField_sentFields _ fun header hmem => (hheaders header hmem).1)
    (contentLength_sentFields (fun header hmem => (hheaders header hmem).2) hbody) rest

/-- A request for the usage page whose host contains a lone line feed and what looks like a header: all of
it is part of the body. -/
theorem served_response_read_back_stun :
    ∃ response, decideRedirect
        { method := "GET", target := "/", host := some "stun.a\nSet-Cookie: s", isWebsocketUpgrade := false }
        3478 = .serve response ∧
      readResponse (writeDashboardResponse (fun _ => utf8Bytes "stun.a\nSet-Cookie: s".toList) response ++
          [0x47]) =
        some
          ({ status := 200
             reason := "OK"
             fields := [("Content-Type", "text/html; charset=utf-8"), ("Content-Length", "20"),
               ("Connection", "close")]
             body := utf8Bytes "stun.a\nSet-Cookie: s".toList }, [0x47]) := by
  have hserve : decideRedirect
      { method := "GET", target := "/", host := some "stun.a\nSet-Cookie: s", isWebsocketUpgrade := false }
      3478 = .serve (okHtml (.stunUsage "stun.a\nSet-Cookie: s" "a\nSet-Cookie: s")) := by decide +kernel
  have hlength : (utf8Bytes "stun.a\nSet-Cookie: s".toList).length = 20 := by decide +kernel
  have htext : toString 20 = "20" := by decide +kernel
  refine ⟨_, hserve, ?_⟩
  rw [served_response_read_back {} nowhere (readsOf (Relay.new silentCrates)) 0 0 _ 3478 _ (.inr hserve)
    (fun _ => utf8Bytes "stun.a\nSet-Cookie: s".toList) (by rw [hlength]; decide) [0x47], hlength, htext]
  rfl

end DigRelay
