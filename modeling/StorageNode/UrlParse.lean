/-
# `urllib.parse.urlparse`

The standard library's URL splitting on lists of characters, with the derived attributes
`hostname` and `port`.  Nothing here follows RFC 3986 beyond what the library does.

* `urlsplit`, `splitParams`, `urlparse` : the components of a URL;
* `ParseResult.hostname`, `ParseResult.port` : what is read out of the `netloc`;
* `UrlChecks` : the two checks of a `netloc` that depend on the grammar of addresses and on
  Unicode normalisation; they can only make `urlparse` raise.

Letters are lower-cased as far as they are ASCII.
-/
import Mathlib

/-- A `str`. -/
abbrev Text := List Char

/-- `urlparse` and the attribute `port` raise `ValueError` and nothing else. -/
inductive UrlError
  | valueError
  deriving DecidableEq

namespace UrlParse

/-- `s.lower()`. -/
def lower (s : Text) : Text := s.map Char.toLower

/-- `s.partition(c)[0]`. -/
def before (c : Char) (s : Text) : Text := s.takeWhile (· != c)

/-- `s.partition(c)[2]`. -/
def after (c : Char) (s : Text) : Text := (s.dropWhile (· != c)).drop 1

/-- `s.rpartition(c)[2]`. -/
def afterLast (c : Char) (s : Text) : Text := (s.reverse.takeWhile (· != c)).reverse

/-- `_UNSAFE_URL_BYTES_TO_REMOVE` -/
def unsafeChars : Text := ['\t', '\r', '\n']

/-- The characters in `_UNSAFE_URL_BYTES_TO_REMOVE` are removed wherever they are. -/
def removeUnsafe (s : Text) : Text := s.filter (· ∉ unsafeChars)

/-- `url.lstrip(_WHATWG_C0_CONTROL_OR_SPACE)` -/
def lstrip (s : Text) : Text := s.dropWhile fun c => c.toNat ≤ 32

/-- A character of `scheme_chars`. -/
def isSchemeChar (c : Char) : Bool := c.isAlphanum || c == '+' || c == '-' || c == '.'

/-- The scheme, when there is one, and the rest. -/
def splitScheme (url : Text) : Text × Text :=
  let head := before ':' url
  -- a colon behind anything else belongs to the rest
  if ':' ∈ url ∧ (head.head?.any Char.isAlpha && head.all isSchemeChar) = true then
    (lower head, after ':' url)
  else ([], url)

/-- A delimiter of `_splitnetloc`. -/
def isDelim (c : Char) : Bool := c == '/' || c == '?' || c == '#'

/-- The checks `urlsplit` leaves to other modules: whether a `netloc` with brackets holds a
proper address (`ipaddress`), and whether one that is not ASCII stays free of delimiters
under NFKC (`unicodedata`). -/
structure UrlChecks where
  bracketed : Text → Bool
  nfkc : Text → Bool

/-- The checks of `urlsplit`. -/
def UrlChecks.accepts (checks : UrlChecks) (netloc : Text) : Bool :=
  (('[' ∈ netloc) == (']' ∈ netloc)) && (!('[' ∈ netloc) || checks.bracketed netloc) &&
    (netloc.all (fun c => c.toNat < 128) || checks.nfkc netloc)

/-- What `urlparse` returns. -/
structure ParseResult where
  scheme : Text
  netloc : Text
  path : Text
  params : Text
  query : Text
  fragment : Text
  deriving DecidableEq

/-- `urlsplit`; the components it does not split are empty. -/
def urlsplit (checks : UrlChecks) (url : Text) : Except UrlError ParseResult :=
  let (scheme, rest) := splitScheme (removeUnsafe (lstrip url))
  let (netloc, rest) :=
    if rest.take 2 = ['/', '/'] then
      ((rest.drop 2).takeWhile (!isDelim ·), (rest.drop 2).dropWhile (!isDelim ·))
    else ([], rest)
  if checks.accepts netloc then
    -- the fragment is cut off before the query
    .ok { scheme, netloc, path := before '?' (before '#' rest), params := [],
          query := after '?' (before '#' rest), fragment := after '#' rest }
  else .error .valueError

/-- `uses_params` -/
def usesParams : List Text :=
  ["", "ftp", "hdl", "prospero", "http", "imap", "https", "shttp", "rtsp", "rtspu", "sip",
    "sips", "mms", "sftp", "tel"].map String.toList

/-- `_splitparams`: the parameters of the last segment. -/
def splitParams (path : Text) : Text × Text :=
  let last := afterLast '/' path
  (path.take (path.length - last.length) ++ before ';' last, after ';' last)

/-- `urlparse`. -/
def urlparse (checks : UrlChecks) (url : Text) : Except UrlError ParseResult := do
  let r ← urlsplit checks url
  if r.scheme ∈ usesParams then
    pure { r with path := (splitParams r.path).1, params := (splitParams r.path).2 }
  else pure r

namespace ParseResult

/-- `_hostinfo`. -/
def hostinfo (r : ParseResult) : Text × Option Text :=
  let hostinfo := afterLast '@' r.netloc
  let (hostname, port) :=
    -- an address in brackets may have colons of its own
    if '[' ∈ hostinfo then
      (before ']' (after '[' hostinfo), after ':' (after ']' (after '[' hostinfo)))
    else (before ':' hostinfo, after ':' hostinfo)
  (hostname, if port = [] then none else some port)

/-- `hostname`: a zone after `%` keeps its case. -/
def hostname (r : ParseResult) : Option Text :=
  let hostname := r.hostinfo.1
  if hostname = [] then none
  else if '%' ∈ hostname then some (lower (before '%' hostname) ++ '%' :: after '%' hostname)
  else some (lower hostname)

/-- The value of a digit. -/
def digitValue (c : Char) : ℕ := c.toNat - '0'.toNat

/-- `int(s)` for ASCII digits. -/
def intOf (s : Text) : ℕ := s.foldl (fun n c => 10 * n + digitValue c) 0

/-- `port`. -/
def port (r : ParseResult) : Except UrlError (Option ℕ) :=
  match r.hostinfo.2 with
  | none => .ok none
  | some port =>
      -- `port.isdigit() and port.isascii()`
      if port.all Char.isDigit then
        if intOf port ≤ 65535 then .ok (some (intOf port)) else .error .valueError
      else .error .valueError

end ParseResult

end UrlParse
