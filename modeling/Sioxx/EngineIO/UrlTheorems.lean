/-
Sioxx.EngineIO.UrlTheorems — what the URL functions agree on, and where
`parse_ws_url` splits an authority wrongly.

`parseWsUrl_parts` says where the scanner cuts a URL whose authority has no
slash. Host and port are then a matter of the authority alone
(`hostAndPort`). The colon of the port is the last one, unless a closing
bracket stands before it; a bracketed literal without a port has only
colons that are before the bracket, and the last of them is taken for that
of a port (`splitsExactly_iff`).

`buildEngineioUrl` keeps the authority as it is, so both scanners cut at
the same place, and everything it puts into the query is escaped, so that
the query is read back field by field.
-/
import Sioxx.EngineIO.Url

namespace Sioxx

open Lib

/-! ## Where a URL is cut -/

/-- The parts of `scheme://authority` and what comes behind it. -/
def partsOf (scheme authority rest : Bytes) : UrlParts :=
  let tls := scheme == ascii "wss" || scheme == ascii "https"
  let (host, port) := hostAndPort authority tls
  { scheme, host, port, target := if rest.isEmpty then ascii "/" else rest, tls }

theorem findText_scheme {scheme : Bytes} (hscheme : ¬ schemeSeparator <:+: scheme) (rest : Bytes) :
    findText schemeSeparator (scheme ++ (schemeSeparator ++ rest)) = some scheme.length :=
  findText_append (c := colon) (by decide) hscheme rest

theorem parseWsUrl_parts {scheme authority rest : Bytes}
    (hscheme : ¬ schemeSeparator <:+: scheme) (hauthority : slash ∉ authority)
    (hrest : rest = [] ∨ rest.head? = some slash) :
    parseWsUrl (scheme ++ (schemeSeparator ++ (authority ++ rest)))
      = .ok (partsOf scheme authority rest) := by
  have hstart : scheme.length + 3 = (scheme ++ schemeSeparator).length := by
    rw [List.length_append]
    rfl
  have hdrop : (scheme ++ (schemeSeparator ++ (authority ++ rest))).drop (scheme.length + 3)
      = authority ++ rest := by
    rw [hstart, ← List.append_assoc, drop_length_append]
  rw [parseWsUrl, findText_scheme hscheme]
  cases rest with
  | nil =>
    have hnone : findFrom (scheme ++ (schemeSeparator ++ (authority ++ []))) slash
        (scheme.length + 3) = none := by
      rw [hstart, ← List.append_assoc]
      exact findFrom_none _ _ _ (by simpa using hauthority)
    simp only [List.append_nil] at hnone hdrop ⊢
    simp only [hnone, hdrop, List.take_left, partsOf, List.isEmpty_nil, if_true]
  | cons b rest =>
    obtain rfl : b = slash := by simpa using hrest
    have hsome : findFrom (scheme ++ (schemeSeparator ++ (authority ++ slash :: rest))) slash
        (scheme.length + 3) = some (scheme.length + 3 + authority.length) := by
      rw [hstart, ← List.append_assoc]
      exact findFrom_append _ _ _ _ hauthority
    have htarget : (scheme ++ (schemeSeparator ++ (authority ++ slash :: rest))).drop
        (scheme.length + 3 + authority.length) = slash :: rest := by
      rw [← List.drop_drop, hdrop, drop_length_append]
    simp only [hsome, substr, hdrop, htarget, Nat.add_sub_cancel_left, List.take_left, partsOf,
      List.isEmpty_cons, Bool.false_eq_true, if_false]

/-! ## Host and port -/

/-- What may stand for the host of a URL: a name or an IPv4 address, or an
IPv6 literal in brackets. -/
inductive HostText : Bytes → Prop where
  | name {host : Bytes} : host ≠ [] → colon ∉ host → slash ∉ host → byteOf '[' ∉ host →
      byteOf ']' ∉ host → HostText host
  | literal {inner : Bytes} : (∀ b ∈ inner, b = colon ∨ (hexValue b).isSome = true) →
      HostText (byteOf '[' :: (inner ++ [byteOf ']']))

/-- The port behind a host. -/
def portText : Option Bytes → Bytes
  | none => []
  | some port => colon :: port

def restText : Option Bytes → Bytes
  | none => []
  | some rest => slash :: rest

/-- `scheme://host[:port][/rest]` -/
def urlText (scheme host : Bytes) (port rest : Option Bytes) : Bytes :=
  scheme ++ (schemeSeparator ++ ((host ++ portText port) ++ restText rest))

def defaultPort (scheme : Bytes) : Bytes :=
  if scheme = ascii "wss" ∨ scheme = ascii "https" then ascii "443" else ascii "80"

/-- `parse_ws_url` returns what the URL was written from. -/
def SplitsExactly (scheme host : Bytes) (port rest : Option Bytes) : Prop :=
  parseWsUrl (urlText scheme host port rest) = .ok
    { scheme, host
      port := port.getD (defaultPort scheme)
      target := slash :: rest.getD []
      tls := decide (scheme = ascii "wss" ∨ scheme = ascii "https") }

instance (scheme host : Bytes) (port rest : Option Bytes) :
    Decidable (SplitsExactly scheme host port rest) :=
  inferInstanceAs (Decidable (_ = _))

theorem portColon_none {authority : Bytes} (h : colon ∉ authority) :
    portColon authority = none := by
  rw [portColon, findLast_none h]

/-- A colon before which no bracket closes. -/
theorem portColon_last {host port : Bytes} (hport : colon ∉ port)
    (hbracket : byteOf ']' ∉ host ++ colon :: port) :
    portColon (host ++ colon :: port) = some host.length := by
  have hnone : findFrom (host ++ colon :: port) (byteOf ']') 0 = none :=
    findFrom_none [] _ _ hbracket
  rw [portColon, findLast_append host hport, hnone]

/-- A colon right behind the bracket. -/
theorem portColon_literal {front port : Bytes} (hport : colon ∉ port)
    (hfront : byteOf ']' ∉ front) :
    portColon (front ++ byteOf ']' :: colon :: port) = some (front.length + 1) := by
  have hlast : findLast colon (front ++ byteOf ']' :: colon :: port) = some (front.length + 1) := by
    simpa using findLast_append (front ++ [byteOf ']']) hport
  have hbracket : findFrom (front ++ byteOf ']' :: colon :: port) (byteOf ']') 0
      = some front.length := by
    simpa using findFrom_append [] front (colon :: port) (byteOf ']') hfront
  have hbehind : findFrom (front ++ byteOf ']' :: colon :: port) colon front.length
      = some (front.length + 1) :=
    findFrom_append front [byteOf ']'] port colon (by decide)
  simp only [portColon, hlast, hbracket, hbehind, Nat.lt_succ_self, if_true]

/-- Only colons before the bracket. -/
theorem portColon_bare {front back : Bytes} (hback : colon ∉ back)
    (hbracket : byteOf ']' ∉ front ++ colon :: back) :
    portColon (front ++ colon :: (back ++ [byteOf ']'])) = some front.length := by
  have hlast : findLast colon (front ++ colon :: (back ++ [byteOf ']'])) = some front.length := by
    refine findLast_append front ?_
    rw [List.mem_append, not_or]
    exact ⟨hback, by decide⟩
  have hclosing : findFrom (front ++ colon :: (back ++ [byteOf ']'])) (byteOf ']') 0
      = some (front ++ colon :: back).length := by
    simpa using findFrom_append [] (front ++ colon :: back) [] (byteOf ']') hbracket
  have hlate : ¬ (front ++ colon :: back).length < front.length := by
    rw [List.length_append]
    omega
  simp only [portColon, hlast, hclosing, if_neg hlate]

/-- The last of the colons of a text. -/
theorem split_last {c : UInt8} {s : Bytes} (h : c ∈ s) :
    ∃ front back, s = front ++ c :: back ∧ c ∉ back := by
  induction s with
  | nil => cases h
  | cons b s ih =>
    by_cases hs : c ∈ s
    · obtain ⟨front, back, rfl, hback⟩ := ih hs
      exact ⟨b :: front, back, rfl, hback⟩
    · rcases List.mem_cons.mp h with rfl | h
      · exact ⟨[], s, rfl, hs⟩
      · exact absurd h hs

/-- A digit is no colon and no bracket. -/
theorem digit_ne {b : UInt8} (h : isDigit b = true) : b ≠ colon ∧ b ≠ byteOf ']' ∧ b ≠ slash := by
  refine ⟨?_, ?_, ?_⟩ <;>
  · rintro rfl
    exact absurd h (by decide)

theorem HostText.slash_notMem {host : Bytes} (h : HostText host) : slash ∉ host := by
  cases h with
  | name _ _ hslash => exact hslash
  | literal hinner =>
    simp only [List.mem_cons, List.mem_append, List.not_mem_nil, or_false, not_or]
    refine ⟨by decide, fun h => ?_, by decide⟩
    rcases hinner slash h with h | h
    · exact absurd h (by decide)
    · exact absurd h (by decide)

/-- No bracket inside the brackets. -/
theorem bracket_notMem {inner : Bytes}
    (hinner : ∀ b ∈ inner, b = colon ∨ (hexValue b).isSome = true) :
    byteOf ']' ∉ byteOf '[' :: inner := by
  rw [List.mem_cons, not_or]
  refine ⟨by decide, fun h => ?_⟩
  rcases hinner _ h with h | h
  · exact absurd h (by decide)
  · exact absurd h (by decide)

theorem portText_notMem {port : Option Bytes} (hport : ∀ p ∈ port, ∀ b ∈ p, isDigit b = true) :
    slash ∉ portText port ∧ byteOf ']' ∉ portText port := by
  cases port with
  | none => exact ⟨by simp [portText], by simp [portText]⟩
  | some port =>
    simp only [portText, List.mem_cons, not_or]
    refine ⟨⟨by decide, fun h => ?_⟩, by decide, fun h => ?_⟩
    · exact (digit_ne (hport port rfl _ h)).2.2 rfl
    · exact (digit_ne (hport port rfl _ h)).2.1 rfl

/-- Whether the URL comes apart as it was written is decided by its
authority. -/
theorem splitsExactly_iff_hostAndPort {scheme host : Bytes} {port rest : Option Bytes}
    (hscheme : ¬ schemeSeparator <:+: scheme) (hslash : slash ∉ host ++ portText port) :
    SplitsExactly scheme host port rest ↔
      hostAndPort (host ++ portText port) (scheme == ascii "wss" || scheme == ascii "https")
        = (host, port.getD (defaultPort scheme)) := by
  have hrest : restText rest = [] ∨ (restText rest).head? = some slash := by
    cases rest with
    | none => exact .inl rfl
    | some rest => exact .inr rfl
  have htarget : (if (restText rest).isEmpty then ascii "/" else restText rest)
      = slash :: rest.getD [] := by
    cases rest with
    | none => rfl
    | some rest => rfl
  have htls : (scheme == ascii "wss" || scheme == ascii "https")
      = decide (scheme = ascii "wss" ∨ scheme = ascii "https") := by
    rw [Bool.eq_iff_iff, Bool.or_eq_true, beq_iff_eq, beq_iff_eq, decide_eq_true_iff]
  rw [SplitsExactly, urlText, parseWsUrl_parts hscheme hslash hrest, partsOf, htarget, htls]
  simp [Prod.ext_iff]

/-- `parse_ws_url` gets host and port right unless the host is a literal
with a colon and there is no port. -/
theorem splitsExactly_iff {scheme host : Bytes} {port rest : Option Bytes}
    (hscheme : ¬ schemeSeparator <:+: scheme) (hhost : HostText host)
    (hport : ∀ p ∈ port, ∀ b ∈ p, isDigit b = true) :
    SplitsExactly scheme host port rest ↔ colon ∉ host ∨ port.isSome = true := by
  have hslash : slash ∉ host ++ portText port := by
    rw [List.mem_append, not_or]
    exact ⟨hhost.slash_notMem, (portText_notMem hport).1⟩
  rw [splitsExactly_iff_hostAndPort hscheme hslash]
  cases port with
  | some port =>
    have hcolon : colon ∉ port := fun h => (digit_ne (hport port rfl _ h)).1 rfl
    have hcut : portColon (host ++ portText (some port)) = some host.length := by
      cases hhost with
      | name _ _ _ _ hclosing =>
        refine portColon_last hcolon ?_
        rw [List.mem_append, not_or]
        exact ⟨hclosing, (portText_notMem hport).2⟩
      | @literal inner hinner =>
        have hliteral := portColon_literal hcolon (bracket_notMem hinner)
        simpa [portText] using hliteral
    rw [hostAndPort, hcut]
    simp [portText]
  | none =>
    rw [portText, List.append_nil]
    by_cases hcolon : colon ∈ host
    · -- the cut is inside the literal, so the host is too short
      have hcut : ∃ k < host.length, portColon host = some k := by
        cases hhost with
        | name _ hname => exact absurd hcolon hname
        | @literal inner hinner =>
          have hmem : colon ∈ byteOf '[' :: inner := by
            rw [← List.cons_append, List.mem_append] at hcolon
            exact hcolon.resolve_right (by decide)
          obtain ⟨front, back, hsplit, hback⟩ := split_last hmem
          have hbare := portColon_bare hback (hsplit ▸ bracket_notMem hinner)
          refine ⟨front.length, ?_, ?_⟩
          · rw [← List.cons_append, hsplit]
            simp
          · rw [← List.cons_append, hsplit]
            simpa using hbare
      obtain ⟨k, hk, hcut⟩ := hcut
      have hshort : host.take k ≠ host := by
        intro h
        have hlen := congrArg List.length h
        rw [List.length_take] at hlen
        omega
      simp [hostAndPort, hcut, hshort, hcolon]
    · simp [hostAndPort, portColon_none hcolon, hcolon, defaultPort]

/-- `ws://[::1]/`, the loopback address on the default port. -/
theorem loopback_not_split : ¬ SplitsExactly (ascii "ws") (ascii "[::1]") none (some []) := by
  decide

/-- With a port it is split as it should be. -/
theorem loopbackPort_split :
    ¬ schemeSeparator <:+: ascii "ws" ∧
      SplitsExactly (ascii "ws") (ascii "[::1]") (some (ascii "8080")) (some []) :=
  ⟨by decide, (splitsExactly_iff (by decide) (@HostText.literal (ascii "::1")
    (by decide +kernel)) (by decide +kernel)).mpr (.inr rfl)⟩

/-! ## Building a URL -/

/-- The schemes an application may give. -/
inductive UriScheme where
  | http
  | https
  | ws
  | wss
  deriving DecidableEq, Repr

namespace UriScheme

def text : UriScheme → Bytes
  | http => ascii "http"
  | https => ascii "https"
  | ws => ascii "ws"
  | wss => ascii "wss"

def secure : Option UriScheme → Bool
  | some https => true
  | some wss => true
  | _ => false

/-- The WebSocket scheme for it. -/
def wsText (scheme : Option UriScheme) : Bytes := if secure scheme then ascii "wss" else ascii "ws"

theorem text_plain (scheme : UriScheme) : ¬ schemeSeparator <:+: scheme.text := by
  cases scheme <;> decide

theorem wsText_plain (scheme : Option UriScheme) : ¬ schemeSeparator <:+: wsText scheme := by
  rw [wsText]
  split <;> decide

end UriScheme

/-- `[scheme://]` and what comes behind it. -/
def uriText (scheme : Option UriScheme) (rest : Bytes) : Bytes :=
  match scheme with
  | none => rest
  | some scheme => scheme.text ++ (schemeSeparator ++ rest)

theorem uriScheme_text (scheme : UriScheme) (rest : Bytes) :
    uriScheme (scheme.text ++ (schemeSeparator ++ rest)) = scheme.text := by
  rw [uriScheme, findText_scheme scheme.text_plain]
  exact List.take_left

/-- A URI that does not begin with one of the schemes does not have it. -/
theorem uriScheme_ne {uri : Bytes} {scheme : UriScheme}
    (h : ¬ scheme.text ++ schemeSeparator <+: uri) : uriScheme uri ≠ scheme.text := by
  rw [uriScheme]
  cases hfind : findText schemeSeparator uri with
  | none => cases scheme <;> exact (List.cons_ne_nil _ _).symm
  | some k =>
    intro heq
    have hk : uri.take k = scheme.text := heq
    obtain ⟨rest, hrest⟩ := findText_some hfind
    rw [hk, ← List.append_assoc] at hrest
    exact h ⟨rest, hrest.symm⟩

theorem withWsScheme_eq (scheme : Option UriScheme) (rest : Bytes)
    (habsent : scheme = none → ∀ s : UriScheme, ¬ s.text ++ schemeSeparator <+: rest) :
    withWsScheme (uriText scheme rest) = UriScheme.wsText scheme ++ (schemeSeparator ++ rest) := by
  cases scheme with
  | some scheme =>
    simp only [uriText, withWsScheme, uriScheme_text]
    cases scheme <;> rfl
  | none =>
    have hother : ∀ s : UriScheme, uriScheme rest ≠ s.text := fun s => uriScheme_ne (habsent rfl s)
    have hhttp : uriScheme rest ≠ ascii "http" := hother .http
    have hhttps : uriScheme rest ≠ ascii "https" := hother .https
    have hws : uriScheme rest ≠ ascii "ws" ∧ uriScheme rest ≠ ascii "wss" :=
      ⟨hother .ws, hother .wss⟩
    have hrest : uriText none rest = rest := rfl
    rw [hrest, withWsScheme, if_neg hhttp, if_neg hhttps, if_pos hws]
    rfl

/-- A search ends behind what does not have the byte. -/
theorem le_findFrom (pre rest : Bytes) {s : Bytes} {c : UInt8} (hs : c ∉ s) :
    pre.length + s.length ≤ (findFrom (pre ++ (s ++ rest)) c pre.length).getD
      (pre ++ (s ++ rest)).length := by
  cases hfind : findFrom (pre ++ (s ++ rest)) c pre.length with
  | none =>
    simp only [Option.getD_none, List.length_append]
    omega
  | some k =>
    obtain ⟨mid, behind, hsplit, -, rfl⟩ := findFrom_some hfind
    rw [Option.getD_some, Nat.add_le_add_iff_left]
    by_contra hshort
    -- the byte would stand inside `s`
    have hc : (s ++ rest)[mid.length]? = some c := by rw [hsplit]; simp
    rw [List.getElem?_append_left (by omega)] at hc
    exact hs (List.mem_of_getElem? hc)

theorem urlBase_eq {scheme authority tail : Bytes} (hscheme : ¬ schemeSeparator <:+: scheme)
    (hslash : slash ∉ authority) (hquestion : byteOf '?' ∉ authority)
    (htail : tail = [] ∨ tail.head? = some slash ∨ tail.head? = some (byteOf '?')) :
    urlBase (scheme ++ (schemeSeparator ++ (authority ++ tail)))
      = scheme ++ (schemeSeparator ++ authority) := by
  have hstart : scheme.length + 3 = (scheme ++ schemeSeparator).length := by
    rw [List.length_append]
    rfl
  have hpath := le_findFrom (scheme ++ schemeSeparator) tail hslash
  have hquery := le_findFrom (scheme ++ schemeSeparator) tail hquestion
  -- one of the two searches stops at the end of the authority
  have hend : min
      ((findFrom (scheme ++ schemeSeparator ++ (authority ++ tail)) slash
        (scheme ++ schemeSeparator).length).getD
          (scheme ++ schemeSeparator ++ (authority ++ tail)).length)
      ((findFrom (scheme ++ schemeSeparator ++ (authority ++ tail)) (byteOf '?')
        (scheme ++ schemeSeparator).length).getD
          (scheme ++ schemeSeparator ++ (authority ++ tail)).length)
      = (scheme ++ schemeSeparator).length + authority.length := by
    cases tail with
    | nil =>
      rw [List.append_nil] at hpath hquery ⊢
      rw [findFrom_none _ _ _ hslash, findFrom_none _ _ _ hquestion, Option.getD_none,
        Nat.min_self, List.length_append]
    | cons b tail =>
      rcases htail with htail | htail | htail
      · cases htail
      · obtain rfl : b = slash := by simpa using htail
        rw [findFrom_append _ _ _ _ hslash]
        exact Nat.min_eq_left hquery
      · obtain rfl : b = byteOf '?' := by simpa using htail
        rw [findFrom_append _ _ _ _ hquestion]
        exact Nat.min_eq_right hpath
  simp only [urlBase, findText_scheme hscheme]
  rw [hstart, ← List.append_assoc, hend, ← List.append_assoc, ← List.append_assoc,
    ← List.length_append, List.take_left]

/-- The Engine.IO path of a URL. -/
def enclosedPath (path : Bytes) : Bytes :=
  if path = [] then ascii "/socket.io/"
  else
    (if path.head? = some slash then [] else [slash]) ++ path ++
      (if path.getLast? = some slash then [] else [slash])

theorem normalizedPath_eq (path : Bytes) : normalizedPath path = enclosedPath path := by
  cases path with
  | nil => rfl
  | cons b rest =>
    have hlast : (slash :: b :: rest).getLast? = (b :: rest).getLast? := List.getLast?_cons_cons
    by_cases hb : b = slash
    · by_cases hend : (b :: rest).getLast? = some slash <;>
        simp [normalizedPath, enclosedPath, hb, hb ▸ hend]
    · by_cases hend : (b :: rest).getLast? = some slash <;>
        simp [normalizedPath, enclosedPath, hb, hlast, hend]

theorem enclosedPath_head (path : Bytes) : (enclosedPath path).head? = some slash := by
  cases path with
  | nil => rfl
  | cons b rest =>
    by_cases hb : b = slash <;> simp [enclosedPath, hb]

theorem notMem_enclosedPath {c : UInt8} {path : Bytes} (hpath : c ∉ path)
    (hdefault : c ∉ ascii "/socket.io/") : c ∉ enclosedPath path := by
  have hslash : c ≠ slash := by
    rintro rfl
    exact hdefault (by decide)
  rw [enclosedPath]
  split
  · exact hdefault
  · rw [List.mem_append, List.mem_append, not_or, not_or]
    refine ⟨⟨?_, hpath⟩, ?_⟩ <;> split <;> simp [hslash]

theorem appendQuery_eq (base : Bytes) (entries : List (Bytes × Bytes)) :
    appendQuery base entries =
      match entries.find? (fun entry => entry.1 ∈ reservedKeys) with
      | some entry => .error (.reservedParameter entry.1)
      | none =>
        .ok (base ++ entries.flatMap fun entry => byteOf '&' :: writeField unescaped entry) := by
  induction entries generalizing base with
  | nil => simp [appendQuery]
  | cons entry entries ih =>
    obtain ⟨key, value⟩ := entry
    rw [appendQuery, List.find?_cons]
    by_cases hkey : key ∈ reservedKeys
    · simp [hkey]
    · have htext : ascii "&" ++ encodeQueryComponent key ++ ascii "=" ++ encodeQueryComponent value
          = byteOf '&' :: writeField unescaped (key, value) := by
        simp [writeField, encodeQueryComponent, ascii]
      rw [if_neg hkey, htext, ih]
      simp [hkey]

theorem unescaped_escapes : Escapes unescaped := ⟨by decide, by decide, by decide⟩

/-- The query of a built URL. -/
def queryText (transport : Bytes) (query : QueryMap) : Bytes :=
  writeField unescaped (ascii "EIO", ascii "4") ++
    ((ascii "transport", transport) :: query.entries).flatMap fun entry =>
      byteOf '&' :: writeField unescaped entry

theorem readQuery_queryText (transport : Bytes) (query : QueryMap) :
    readQuery (queryText transport query)
      = (ascii "EIO", ascii "4") :: (ascii "transport", transport) :: query.entries :=
  readQuery_fields unescaped_escapes _ _

/-- Nothing in the query begins a fragment. -/
theorem hash_notMem_queryText (transport : Bytes) (query : QueryMap) :
    byteOf '#' ∉ queryText transport query := by
  have hfield : ∀ field : Bytes × Bytes, byteOf '#' ∉ writeField unescaped field :=
    notMem_writeField (by decide) (by decide) (by decide) (by decide)
  rw [queryText, List.mem_append, not_or]
  refine ⟨hfield _, fun hmem => ?_⟩
  obtain ⟨entry, -, hentry⟩ := List.mem_flatMap.mp hmem
  rcases List.mem_cons.mp hentry with h | h
  · exact absurd h (by decide)
  · exact hfield entry h

/-- The URL for an authority. -/
def builtUrl (scheme : Option UriScheme) (authority path transport : Bytes) (query : QueryMap) :
    Bytes :=
  UriScheme.wsText scheme ++ (schemeSeparator ++ (authority ++
    (enclosedPath path ++ byteOf '?' :: queryText transport query)))

/-- A reserved key is refused, and otherwise the URL is written. -/
theorem buildEngineioUrl_cases {scheme : Option UriScheme} {authority tail path transport : Bytes}
    {query : QueryMap} (hslash : slash ∉ authority) (hquestion : byteOf '?' ∉ authority)
    (htail : tail = [] ∨ tail.head? = some slash ∨ tail.head? = some (byteOf '?'))
    (habsent : scheme = none →
      ∀ s : UriScheme, ¬ s.text ++ schemeSeparator <+: authority ++ tail) :
    let built := buildEngineioUrl (uriText scheme (authority ++ tail)) path query transport
    (∃ key ∈ reservedKeys, key ∈ query.entries.map (·.1) ∧
      built = .error (.reservedParameter key)) ∨
    ((∀ key ∈ reservedKeys, key ∉ query.entries.map (·.1)) ∧
      built = .ok (builtUrl scheme authority path transport query)) := by
  have htransport : ascii "?EIO=4&transport=" ++ encodeQueryComponent transport
      = byteOf '?' :: (writeField unescaped (ascii "EIO", ascii "4") ++
        byteOf '&' :: writeField unescaped (ascii "transport", transport)) := rfl
  simp only [buildEngineioUrl]
  rw [withWsScheme_eq scheme (authority ++ tail) habsent,
    urlBase_eq (UriScheme.wsText_plain scheme) hslash hquestion htail, normalizedPath_eq,
    htransport, appendQuery_eq]
  cases hfind : query.entries.find? fun entry => entry.1 ∈ reservedKeys with
  | some entry =>
    exact .inl ⟨entry.1, by simpa using List.find?_some hfind,
      List.mem_map_of_mem (List.mem_of_find?_eq_some hfind), rfl⟩
  | none =>
    refine .inr ⟨fun key hreserved hkey => ?_, by simp [builtUrl, queryText]⟩
    obtain ⟨entry, hentry, rfl⟩ := List.mem_map.mp hkey
    exact absurd hreserved (by simpa using List.find?_eq_none.mp hfind entry hentry)

theorem parseWsUrl_builtUrl (scheme : Option UriScheme) {authority : Bytes}
    (hslash : slash ∉ authority) (path transport : Bytes) (query : QueryMap) :
    parseWsUrl (builtUrl scheme authority path transport query)
      = .ok (partsOf (UriScheme.wsText scheme) authority
          (enclosedPath path ++ byteOf '?' :: queryText transport query)) := by
  have hhead : (enclosedPath path ++ byteOf '?' :: queryText transport query).head?
      = some slash := by
    rw [List.head?_append, enclosedPath_head, Option.some_or]
  exact parseWsUrl_parts (UriScheme.wsText_plain scheme) hslash (.inr hhead)

theorem partsOf_wsText (scheme : Option UriScheme) (authority rest : Bytes) :
    ((partsOf (UriScheme.wsText scheme) authority rest).scheme = ascii "ws" ∨
      (partsOf (UriScheme.wsText scheme) authority rest).scheme = ascii "wss") ∧
    ((partsOf (UriScheme.wsText scheme) authority rest).tls = true ↔
      scheme = some .https ∨ scheme = some .wss) := by
  have hsecure : UriScheme.secure scheme = true ↔ scheme = some .https ∨ scheme = some .wss := by
    cases scheme with
    | none => decide
    | some scheme => cases scheme <;> decide
  rw [← hsecure, UriScheme.wsText]
  cases UriScheme.secure scheme with
  | false => exact ⟨.inl rfl, Iff.rfl⟩
  | true => exact ⟨.inr rfl, Iff.rfl⟩

/-- **A built URL is exact.** It is refused if a key is reserved, and
otherwise taken apart into the authority, the path and the parameters it was
built from. -/
theorem buildEngineioUrl_exact (scheme : Option UriScheme)
    (authority tail path transport : Bytes) (query : QueryMap)
    (hslash : slash ∉ authority) (hquestion : byteOf '?' ∉ authority)
    (htail : tail = [] ∨ tail.head? = some slash ∨ tail.head? = some (byteOf '?'))
    (habsent : scheme = none →
      ∀ s : UriScheme, ¬ s.text ++ schemeSeparator <+: authority ++ tail)
    (hpath : byteOf '?' ∉ path ∧ byteOf '#' ∉ path) :
    let built := buildEngineioUrl (uriText scheme (authority ++ tail)) path query transport
    ((∃ error, built = .error error) ↔ ∃ key ∈ reservedKeys, key ∈ query.entries.map (·.1)) ∧
    (∀ error, built = .error error → ∃ key ∈ reservedKeys, error = .reservedParameter key) ∧
    ∀ url, built = .ok url → ∃ parts alone queryString,
      parseWsUrl url = .ok parts ∧
      (parts.scheme = ascii "ws" ∨ parts.scheme = ascii "wss") ∧
      (parts.tls = true ↔ scheme = some .https ∨ scheme = some .wss) ∧
      parseWsUrl (parts.scheme ++ (schemeSeparator ++ authority)) = .ok alone ∧
      parts.host = alone.host ∧ parts.port = alone.port ∧
      parts.target = enclosedPath path ++ byteOf '?' :: queryString ∧
      byteOf '?' ∉ enclosedPath path ∧ byteOf '#' ∉ parts.target ∧
      readQuery queryString
        = (ascii "EIO", ascii "4") :: (ascii "transport", transport) :: query.entries := by
  intro built
  rcases buildEngineioUrl_cases hslash hquestion htail habsent with
    ⟨key, hreserved, hkey, hbuilt⟩ | ⟨hfree, hbuilt⟩
  · have hbuilt : built = .error (.reservedParameter key) := hbuilt
    rw [hbuilt]
    refine ⟨⟨fun _ => ⟨key, hreserved, hkey⟩, fun _ => ⟨_, rfl⟩⟩, ?_,
      (fun url hurl => by cases hurl)⟩
    intro error herror
    cases herror
    exact ⟨key, hreserved, rfl⟩
  · have hbuilt : built = .ok (builtUrl scheme authority path transport query) := hbuilt
    rw [hbuilt]
    refine ⟨⟨?_, ?_⟩, (fun error herror => by cases herror), ?_⟩
    · rintro ⟨error, herror⟩
      cases herror
    · rintro ⟨key, hreserved, hkey⟩
      exact absurd hkey (hfree key hreserved)
    · intro url hurl
      cases hurl
      have halone := parseWsUrl_parts (UriScheme.wsText_plain scheme) hslash
        (.inl (Eq.refl ([] : Bytes)))
      rw [List.append_nil] at halone
      have hparts := partsOf_wsText scheme authority
        (enclosedPath path ++ byteOf '?' :: queryText transport query)
      have htarget : (partsOf (UriScheme.wsText scheme) authority
          (enclosedPath path ++ byteOf '?' :: queryText transport query)).target
            = enclosedPath path ++ byteOf '?' :: queryText transport query := by
        simp [partsOf]
      refine ⟨_, _, queryText transport query,
        parseWsUrl_builtUrl scheme hslash path transport query, hparts.1, hparts.2, halone, rfl,
        rfl, htarget, notMem_enclosedPath hpath.1 (by decide), ?_,
        readQuery_queryText transport query⟩
      rw [htarget, List.mem_append, List.mem_cons, not_or, not_or]
      exact ⟨notMem_enclosedPath hpath.2 (by decide), by decide,
        hash_notMem_queryText transport query⟩

/-- A value with both delimiters in it, behind a URI with a path and query
of its own. -/
theorem buildEngineioUrl_exact_injection :
    let query : QueryMap := ⟨[(ascii "a", ascii "1&sid=x#")], List.pairwise_singleton _ _⟩
    let built := buildEngineioUrl (ascii "https://h:1/x?y") (ascii "eio") query (ascii "polling")
    slash ∉ ascii "h:1" ∧ ∃ url, built = .ok url ∧ ∃ parts queryString,
      parseWsUrl url = .ok parts ∧ parts.target = ascii "/eio/?" ++ queryString ∧
      readQuery queryString = (ascii "EIO", ascii "4") :: (ascii "transport", ascii "polling") ::
        [(ascii "a", ascii "1&sid=x#")] := by
  intro query built
  have hexact := buildEngineioUrl_exact (some .https) (ascii "h:1") (ascii "/x?y") (ascii "eio")
    (ascii "polling") query (by decide) (by decide) (.inr (.inl rfl)) (fun h => by cases h)
    ⟨by decide, by decide⟩
  obtain ⟨url, hurl⟩ : ∃ url, built = .ok url := ⟨_, rfl⟩
  obtain ⟨parts, -, queryString, hparts, -, -, -, -, -, htarget, -, -, hquery⟩ :=
    hexact.2.2 url hurl
  exact ⟨by decide, url, hurl, parts, queryString, hparts, htarget, hquery⟩

end Sioxx
