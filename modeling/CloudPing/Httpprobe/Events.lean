import Mathlib.Data.List.Basic

/-!
# What an HTTP probe logs

The events of `pkg/httpprobe`, and the functions that make them: those of one round trip
(`requestEvents`, `responseEvents`), of one part of the body (`chunkEvents`), and of a dial.
The dates of the events are left out, and a header is the list of its fields in the order
they are visited.
-/

namespace CloudPing.Httpprobe

inductive TransportEventType where
  | connection
  | dnsLookup
  | request
  | requestHeader
  | response
  | responseHeader
  | metadata
  deriving DecidableEq, Repr

structure TransportEvent where
  type : TransportEventType
  name : String
  value : String
  deriving DecidableEq, Repr

abbrev Header := List (String × List String)

/-- `Header.Get`: the first value of the field. -/
def Header.get (header : Header) (key : String) : String :=
  ((header.lookup key).bind List.head?).getD ""

structure Request where
  method : String
  url : String
  requestURI : String
  proto : String
  header : Header
  deriving DecidableEq, Repr

structure Response where
  proto : String
  statusCode : Int
  status : String
  header : Header
  transferEncoding : List String
  contentLength : Int
  deriving DecidableEq, Repr

/-! ## Round trips -/

/-- What `RoundTrip` logs before the request is sent. -/
def requestEvents (req : Request) : List TransportEvent :=
  [⟨.request, "method", req.method⟩, ⟨.request, "url", req.url⟩, ⟨.request, "proto", req.proto⟩,
    ⟨.request, "request-line", req.method ++ " " ++ req.requestURI ++ " " ++ req.proto⟩] ++
  if req.header.isEmpty then []
  else
    [⟨.metadata, "request-headers-start", "---- Start Request Headers ----"⟩] ++
    (req.header.map fun (name, values) => ⟨.requestHeader, name, " ".intercalate values⟩) ++
    [⟨.metadata, "request-headers-end", "---- End Request Headers ----"⟩]

def maxHeaderFieldSize : Nat := 4 * 1024

/-- The loop over the response header, after `read` fields were logged. -/
def headerEvents (headerFieldsLimit : Option Int) : Int → Header → List TransportEvent
  | _, [] => []
  | read, (name, values) :: rest =>
    let val := " ".intercalate values
    if maxHeaderFieldSize < name.utf8ByteSize + val.utf8ByteSize then
      ⟨.metadata, "skip-malformed-response-header",
        "maxHeaderFieldSize=" ++ toString maxHeaderFieldSize⟩ ::
        headerEvents headerFieldsLimit read rest
    else
      ⟨.responseHeader, name, val⟩ ::
        match headerFieldsLimit with
        | some limit =>
          if limit ≤ read + 1 then
            [⟨.metadata, "response-header-fields-truncated",
              "read=" ++ toString (read + 1) ++ ",limit=" ++ toString limit⟩]
          else headerEvents headerFieldsLimit (read + 1) rest
        | none => headerEvents headerFieldsLimit (read + 1) rest

/-- What `RoundTrip` logs of the response. -/
def responseEvents (headerFieldsLimit : Option Int) (resp : Response) : List TransportEvent :=
  [⟨.response, "proto", resp.proto⟩,
    ⟨.response, "status", toString resp.statusCode ++ " " ++ resp.status⟩,
    ⟨.metadata, "response-headers-start", "---- Start Response Headers ----"⟩] ++
  (if headerFieldsLimit.all (0 < ·) then headerEvents headerFieldsLimit 0 resp.header else []) ++
  [⟨.metadata, "response-headers-end", "---- End Response Headers ----"⟩,
    ⟨.response, "transfer-encoding", " ".intercalate resp.transferEncoding⟩,
    ⟨.response, "content-length", toString resp.contentLength⟩,
    ⟨.response, "content-type", resp.header.get "Content-Type"⟩]

/-- The loop logs no more header fields than its limit leaves. -/
theorem headerEvents_count {limit : Int} (header : Header) {read : Int} (h : read < limit) :
    (((headerEvents (some limit) read header).countP (·.type = .responseHeader) : Nat) : Int) ≤
      limit - read := by
  induction header generalizing read with
  | nil => simp only [headerEvents, List.countP_nil]; omega
  | cons field rest ih =>
    obtain ⟨name, values⟩ := field
    simp only [headerEvents]
    split
    next =>
      rw [List.countP_cons_of_neg (by simp)]
      exact ih h
    next =>
      rw [List.countP_cons_of_pos (by simp)]
      split
      next =>
        rw [List.countP_cons_of_neg (by simp), List.countP_nil]
        omega
      next hlt =>
        have hrest := ih (Int.lt_of_not_ge hlt)
        push_cast
        omega

/-! ## The body -/

def base64Alphabet : List Char :=
  "ABCDEFGHIJKLMNOPQRSTUVWXYZabcdefghijklmnopqrstuvwxyz0123456789+/".toList

def base64Digit (n : Nat) : Char := base64Alphabet.getD (n % 64) 'A'

/-- `base64.StdEncoding.EncodeToString`. -/
def encodeToString : List UInt8 → List Char
  | [] => []
  | [a] =>
    let n := a.toNat * 65536
    [base64Digit (n / 262144), base64Digit (n / 4096), '=', '=']
  | [a, b] =>
    let n := a.toNat * 65536 + b.toNat * 256
    [base64Digit (n / 262144), base64Digit (n / 4096), base64Digit (n / 64), '=']
  | a :: b :: c :: rest =>
    let n := a.toNat * 65536 + b.toNat * 256 + c.toNat
    base64Digit (n / 262144) :: base64Digit (n / 4096) :: base64Digit (n / 64) :: base64Digit n ::
      encodeToString rest

example : encodeToString [77, 97, 110, 77, 97] = "TWFuTWE=".toList := by decide

def defaultBufSize : Int := 1024

/-- The size of the next read.  Zero or less ends the loop. -/
def bufSize (sizeLimit : Option Int) (bodyBytesRead : Int) : Int :=
  match sizeLimit with
  | some limit =>
    if 0 ≤ limit - bodyBytesRead ∧ limit - bodyBytesRead ≤ defaultBufSize then limit - bodyBytesRead
    else defaultBufSize
  | none => defaultBufSize

/-- The limit is reached. -/
def truncated (sizeLimit : Option Int) (bodyBytesRead : Int) : Bool :=
  sizeLimit.any (· ≤ bodyBytesRead)

/-- What is logged after one part of the body was read. -/
def chunkEvents (sizeLimit : Option Int) (bodyBytesRead : Int) (buf : List UInt8) :
    List TransportEvent :=
  ⟨.response, "body-chunk-base64", String.ofList (encodeToString buf)⟩ ::
    match sizeLimit with
    | some limit =>
      if limit ≤ bodyBytesRead then
        [⟨.response, "body-read-truncated",
          "read=" ++ toString bodyBytesRead ++ ",limit=" ++ toString limit⟩]
      else []
    | none => []

def bodyStart : TransportEvent := ⟨.metadata, "body-start", "---- Start Response Body ----"⟩

def bodyEnd (bodyBytesRead : Int) : List TransportEvent :=
  [⟨.response, "body-end", "---- End Response Body ----"⟩,
    ⟨.response, "body-bytes-read", toString bodyBytesRead⟩]

/-! ## Dials -/

def lookupStarted (network addr prefUsed : String) : TransportEvent :=
  ⟨.dnsLookup, "dns-lookup-started",
    "network=" ++ network ++ ",addr=" ++ addr ++ ",pref=" ++ prefUsed⟩

/-- `net.SplitHostPort` fails. -/
def splitError (addr err : String) : TransportEvent :=
  ⟨.dnsLookup, "dns-lookup-error",
    "failed to split host and port from addr: " ++ addr ++ ": " ++ err⟩

def lookupError (host err : String) : TransportEvent :=
  ⟨.dnsLookup, "dns-lookup-error", "failed to lookup ip from host " ++ host ++ ": " ++ err⟩

def noIPError (host : String) : TransportEvent :=
  ⟨.dnsLookup, "dns-lookup-error", "no ip found for host " ++ host⟩

def lookupCompleted (network addr : String) (ips : List String) (usedIP usedAddr : String) :
    TransportEvent :=
  ⟨.dnsLookup, "dns-lookup-completed",
    "network=" ++ network ++ ",addr=" ++ addr ++ ",ips=" ++ " ".intercalate ips ++ ",usedIP=" ++
      usedIP ++ ",usedAddr=" ++ usedAddr⟩

def dialStarted (network addr resolvedAddr : String) : TransportEvent :=
  ⟨.connection, "dial-started",
    "network=" ++ network ++ ",addr=" ++ addr ++ ",resolvedAddr=" ++ resolvedAddr⟩

def dialError (err : String) : TransportEvent := ⟨.connection, "dial-error", err⟩

def dialCompleted (network addr remoteAddr localAddr : String) : TransportEvent :=
  ⟨.connection, "dial-completed",
    "network=" ++ network ++ ",addr=" ++ addr ++ ",remoteAddr=" ++ remoteAddr ++ ",localAddr=" ++
      localAddr⟩

end CloudPing.Httpprobe
