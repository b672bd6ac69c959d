import BmsBridge.Lib.Paths

/-! `HttpServer::on_request`, which finds the handler of a request, and `serve_file`: a path that no
handler has is that of a file below `www_root`. -/

namespace BmsBridge

/-- What `realpath` gives: an absolute path without links. -/
structure CanonicalPath where
  names : List (List Char)
  proper : ∀ name ∈ names, Paths.Proper '/' name
  plain : ∀ name ∈ names, name ≠ ['.'] ∧ name ≠ ['.', '.']

def CanonicalPath.text (path : CanonicalPath) : List Char := Paths.text '/' path.names

/-- What comes of reading a file to its end. -/
inductive FileRead where
  /-- The stream does not open. -/
  | closed
  | bytes (body : List UInt8)
  /-- It opens, but reading throws, as it does for a directory. -/
  | throws
  deriving DecidableEq, Repr

structure FileSystem where
  realpath : String → Option CanonicalPath
  read : CanonicalPath → FileRead

def kContentTypes : List (String × String) := [
  (".html", "text/html; charset=utf-8"),
  (".htm", "text/html; charset=utf-8"),
  (".css", "text/css"),
  (".js", "application/javascript"),
  (".json", "application/json"),
  (".svg", "image/svg+xml"),
  (".png", "image/png"),
  (".jpg", "image/jpeg"),
  (".jpeg", "image/jpeg"),
  (".ico", "image/x-icon"),
  (".woff", "font/woff"),
  (".woff2", "font/woff2"),
  (".ttf", "font/ttf"),
  (".txt", "text/plain; charset=utf-8")]

def mimeForExt (path : List Char) : String :=
  match Paths.fromLast '.' path with
  | none => "application/octet-stream"
  | some ext => (kContentTypes.lookup (String.ofList ext)).getD "application/octet-stream"

inductive FileReply where
  | notFound
  | ok (contentType : String) (body : List UInt8)
  deriving DecidableEq, Repr

/-- The files may change between the calls: `fs 0`, `fs 1` and `fs 2` is how each of them finds them.
There is no answer if reading throws. -/
def serveFile (wwwRoot : String) (fs : Fin 3 → FileSystem) (path : String) : Option FileReply :=
  match (fs 0).realpath (wwwRoot ++ path) with
  | none => some .notFound
  | some resolved =>
    match (fs 1).realpath wwwRoot with
    | none => some .notFound
    | some rootResolved =>
      if rootResolved.text ++ ['/'] <+: resolved.text then
        match (fs 2).read resolved with
        | .closed => some .notFound
        | .bytes body => some (.ok (mimeForExt resolved.text) body)
        | .throws => none
      else some .notFound

inductive Page where
  | info
  | batteries
  | history
  | daily
  deriving DecidableEq, Repr

def kPages : List (String × Page) := [
  ("/info", .info), ("/batteries", .batteries), ("/history", .history), ("/daily", .daily)]

inductive Handled where
  | badUri
  /-- By the handler of a page. -/
  | page (page : Page)
  | file (reply : FileReply)
  /-- An exception ends the server's thread. -/
  | thrown
  deriving DecidableEq, Repr

/-- The path of a URI that may have none. -/
def requestPath (path : Option String) : String :=
  let path := path.getD "/"
  if path = "/" then "/index.html" else path

/-- `uri` is what `evhttp_uri_parse` makes of the request's URI, as far as its path goes. -/
def onRequest (wwwRoot : String) (fs : Fin 3 → FileSystem) (uri : Option (Option String)) : Handled :=
  match uri with
  | none => .badUri
  | some path =>
    match kPages.lookup (requestPath path) with
    | some page => .page page
    | none =>
      match serveFile wwwRoot fs (requestPath path) with
      | some reply => .file reply
      | none => .thrown

end BmsBridge
