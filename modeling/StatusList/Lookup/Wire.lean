import StatusList.Lookup.Fetching

/-!
# On the wire

A URL is fetched by a *request* sent to its host, which answers with a *reply*:
a head of lines, the first of which has a code, and after an empty line a body up
to the end.

* `requestTo`: the request for a URL;
* `readReply`: the body of a reply, or why there is none.
-/

namespace StatusList.Wire

/-- The port at which a URL is fetched. -/
def portOf (url : Url) : Nat :=
  ((url.authority.bind Url.Authority.port).or (Url.defaultPort? url.scheme)).getD 80

/-- The host of a URL. -/
def hostOf (url : Url) : Url.Host := (url.authority.map Url.Authority.host).getD .empty

/-- The host of a URL as a request names it. -/
def hostText (url : Url) : String :=
  let port := (url.authority.bind Url.Authority.port).map fun port => ":" ++ toString port
  (hostOf url).text ++ port.getD ""

/-- The request for a URL. -/
def requestTo (url : Url) : String :=
  s!"GET {url.target} HTTP/1.0\r\nHost: {hostText url}\r\nAccept: */*\r\nConnection: close\r\n\r\n"

/-- The code in the first line of a head: the digits after its first space. -/
def codeOf? (head : List UInt8) : Option Nat :=
  let digits := ((head.dropWhile (· ≠ 32)).drop 1).takeWhile fun b => 48 ≤ b && b ≤ 57
  if digits = [] then none else some (digits.foldl (fun n b => n * 10 + (b.toNat - 48)) 0)

/-- The bytes after the first empty line, from `index` on. The fuel is the number
    of bytes. -/
def bodyFrom? (bytes : ByteArray) : (fuel index : Nat) → Option ByteArray
  | 0, _ => none
  | fuel + 1, index =>
    if (bytes.extract index (index + 4)).data = #[13, 10, 13, 10] then
      some (bytes.extract (index + 4) bytes.size)
    else bodyFrom? bytes fuel (index + 1)

/-- The body of a reply, or why there is none. -/
def readReply (url : Url) (reply : ByteArray) : Except FetchError ByteArray :=
  match codeOf? (reply.extract 0 64).data.toList, bodyFrom? reply reply.size 0 with
  | some code, some body =>
    if 200 ≤ code ∧ code < 300 then .ok body
    else .error (.status url code (Utf8.decodeLossy body.data.toList))
  | _, _ => .error (.unreachable url "the reply makes no sense")

end StatusList.Wire
