import LinkedMarkup.Fault
import LinkedMarkup.Iri.Validity
import LinkedMarkup.Number.Datum
import LinkedMarkup.Text.Blank
import LinkedMarkup.Text.Case

/-
  This file defines references and their resolution against
  a base. References are read loosely: any text has parts.
  Only the schemes that are known to be hierarchical take
  relative references.

  Key definitions include:
    * `Reference`
    * `Reference.isZonedAddress6`
    * `Reference.isFutureHost`
    * `Reference.checkAuthority`
    * `Reference.split`
    * `Reference.join`
    * `Reference.against`
    * `Iri.withoutFragment`
    * `Iri.resolve`
    * `Iri.looksAbsolute`
-/

namespace LinkedMarkup

------------------------------------------------------------
-- Parts of a reference
------------------------------------------------------------

/- The parts of a reference; a missing part is empty. -/
structure Reference where
  scheme : List Char
  authority : List Char
  path : List Char
  params : List Char
  query : List Char
  fragment : List Char
  deriving DecidableEq, Repr

namespace Reference

/- Schemes that resolve relative references. -/
def hierarchicalSchemes : List String :=
  ["", "ftp", "http", "gopher", "nntp", "imap", "wais", "file",
    "https", "shttp", "mms", "prospero", "rtsp", "rtsps", "rtspu",
    "sftp", "svn", "svn+ssh", "ws", "wss"]

/- Schemes with an authority. -/
def authoritySchemes : List String :=
  ["", "ftp", "http", "gopher", "nntp", "telnet", "imap", "wais",
    "file", "mms", "https", "shttp", "snews", "prospero", "rtsp",
    "rtsps", "rtspu", "rsync", "svn", "svn+ssh", "sftp", "nfs",
    "git", "git+ssh", "ws", "wss"]

/- Schemes whose last path segment may have parameters. -/
def paramSchemes : List String :=
  ["", "ftp", "hdl", "prospero", "http", "imap", "https", "shttp",
    "rtsp", "rtsps", "rtspu", "sip", "sips", "mms", "sftp", "tel"]

/- Whether a scheme is among some. -/
def isAmong
    (schemes : List String)
    (scheme : List Char) : Bool :=
  schemes.any (fun s => s.toList == scheme)

/-
  Drop the leading controls and spaces of a reference, and
  the tabs and line ends anywhere in it.
-/
def clean
    (cs : List Char) : List Char :=
  (cs.dropWhile (fun c => c.toNat ≤ 32)).filter
    (fun c => c != '\t' && c != '\r' && c != '\n')

/-
  Characters that decompose, for compatibility, into one that
  delimits the parts of a reference.
-/
def delimiterLookalikes : List Nat :=
  [0x2047, 0x2048, 0x2049, 0x2100, 0x2101, 0x2105, 0x2106, 0x2A74,
    0xFE13, 0xFE16, 0xFE55, 0xFE56, 0xFE5F, 0xFE6B, 0xFF03, 0xFF0F,
    0xFF1A, 0xFF1F, 0xFF20]

/-
  What stands in the brackets of an authority: what follows
  the first opening one, up to the next closing one.
-/
def bracketed
    (authority : List Char) : List Char :=
  (Text.cutAtChar ']'
    ((Text.cutAtChar '[' authority).2.getD [])).1

/- Whether a text is an address of eight groups, maybe with a zone. -/
def isZonedAddress6
    (host : List Char) : Bool :=
  match Text.cutAtChar '%' host with
  | (address, none) => Iri.isAddress6 address
  | (address, some zone) =>
      Iri.isAddress6 address && !zone.isEmpty && !zone.contains '%'

/-
  Whether a text is an address of a future version. Here any
  characters may follow the dot; line ends are gone before.
-/
def isFutureHost
    (host : List Char) : Bool :=
  match host with
  | 'v' :: rest =>
      match Text.cutAtChar '.' rest with
      | (version, some address) =>
          version.all Text.isHexDigit && !version.isEmpty &&
            !address.isEmpty
      | (_, none) => false
  | _ => false

/- Refuse a host that may not stand in brackets. -/
def checkBracketed
    (host : List Char) : Except Fault Unit :=
  if host.head? == some 'v' then
    if isFutureHost host then .ok () else .error .futureHost
  else if Iri.isAddress4 host then
    .error .dottedHost
  else if isZonedAddress6 host then
    .ok ()
  else
    .error (.unknownHost (Datum.quoted (String.ofList host)))

/- Refuse an authority whose brackets hold no host. -/
def checkBrackets
    (authority : List Char) : Except Fault Unit :=
  if authority.contains '[' != authority.contains ']' then
    .error .invalidAddress
  else if authority.contains '[' then
    checkBracketed (bracketed authority)
  else
    .ok ()

/- Refuse an authority that would be read in two ways. -/
def checkAuthority
    (authority : List Char) : Except Fault Unit :=
  match checkBrackets authority with
  | .error fault => .error fault
  | .ok () =>
      if authority.any
          (fun c => delimiterLookalikes.contains c.toNat) then
        .error (.unsafeHost (String.ofList authority))
      else
        .ok ()

/-
  The parameters of a path: what follows the first semicolon
  of its last segment.
-/
def splitParams
    (path : List Char) : List Char × List Char :=
  let last := (path.reverse.takeWhile (· != '/')).reverse
  let front := path.take (path.length - last.length)
  match Text.cutAtChar ';' last with
  | (_, none) => (path, [])
  | (segment, some params) => (front ++ segment, params)

/- The parts of a text, with a scheme to use if it has none. -/
def split
    (defaultScheme : List Char)
    (text : List Char) : Except Fault Reference :=
  let cleaned := clean text
  let headed :=
    match Iri.scheme? cleaned with
    | some (scheme, rest) => (scheme.map Text.asciiLowerChar, rest)
    | none => (defaultScheme, cleaned)
  let located :=
    match headed.2 with
    | '/' :: '/' :: rest =>
        (rest.takeWhile (fun c => !Iri.endsAuthority c),
          rest.dropWhile (fun c => !Iri.endsAuthority c))
    | rest => ([], rest)
  match checkAuthority located.1 with
  | .error fault => .error fault
  | .ok () =>
      let outer := Text.cutAtChar '#' located.2
      let inner := Text.cutAtChar '?' outer.1
      let lasting :=
        if isAmong paramSchemes headed.1 then
          splitParams inner.1
        else
          (inner.1, [])
      .ok
        { scheme := headed.1
          authority := located.1
          path := lasting.1
          params := lasting.2
          query := inner.2.getD []
          fragment := outer.2.getD [] }

/- A mark and a part, nothing if the part is empty. -/
def marked
    (mark : Char)
    (part : List Char) : List Char :=
  if part.isEmpty then [] else mark :: part

/- The text of a reference. -/
def join
    (r : Reference) : List Char :=
  let path := r.path ++ marked ';' r.params
  let located :=
    if !r.authority.isEmpty ||
        (!r.scheme.isEmpty && isAmong authoritySchemes r.scheme) ||
        Text.startsWith ['/', '/'] path then
      let rooted :=
        if !path.isEmpty && path.head? != some '/' then
          '/' :: path
        else
          path
      '/' :: '/' :: r.authority ++ rooted
    else
      path
  let headed :=
    if r.scheme.isEmpty then
      located
    else
      r.scheme ++ ':' :: located
  headed ++ marked '?' r.query ++ marked '#' r.fragment

------------------------------------------------------------
-- Resolution
------------------------------------------------------------

/-
  Resolve the dot segments of a path: one dot vanishes, two
  take the segment before them along, if there is one.
-/
def resolveDots
    (segments : List (List Char)) : List (List Char) :=
  let kept := segments.foldl
    (fun done segment =>
      if segment == ['.', '.'] then
        done.drop 1
      else if segment == ['.'] then
        done
      else
        segment :: done)
    []
  let closing := segments.getLast?
  if closing == some ['.'] || closing == some ['.', '.'] then
    ([] :: kept).reverse
  else
    kept.reverse

/- Drop the empty segments between the first and the last. -/
def dropEmptyInner :
    List (List Char) → List (List Char)
  | [] => []
  | first :: rest =>
      first :: (rest.dropLast.filter (fun s => !s.isEmpty) ++
        rest.getLast?.toList)

/- The path of a relative reference seen from a base path. -/
def mergePaths
    (base path : List Char) : List Char :=
  let baseSegments := Text.splitOn '/' base
  let folder :=
    if baseSegments.getLast? == some [] then
      baseSegments
    else
      baseSegments.dropLast
  let segments :=
    if path.head? == some '/' then
      Text.splitOn '/' path
    else
      dropEmptyInner (folder ++ Text.splitOn '/' path)
  match Text.joinWith '/' (resolveDots segments) with
  | [] => ['/']
  | merged => merged

/- A reference seen from a base. -/
def against
    (base text : List Char) : Except Fault (List Char) :=
  if base.isEmpty then
    .ok text
  else if text.isEmpty then
    .ok base
  else
    match split [] base with
    | .error fault => .error fault
    | .ok b =>
        match split b.scheme text with
        | .error fault => .error fault
        | .ok r =>
            if r.scheme != b.scheme ||
                !isAmong hierarchicalSchemes r.scheme then
              .ok text
            else if isAmong authoritySchemes r.scheme &&
                !r.authority.isEmpty then
              .ok (join r)
            else
              let authority :=
                if isAmong authoritySchemes r.scheme then
                  b.authority
                else
                  r.authority
              if r.path.isEmpty && r.params.isEmpty then
                .ok (join
                  { r with
                    authority := authority
                    path := b.path
                    params := b.params
                    query := if r.query.isEmpty then b.query else r.query })
              else
                .ok (join
                  { r with
                    authority := authority
                    path := mergePaths b.path r.path })

end Reference

------------------------------------------------------------
-- Resolving attribute values
------------------------------------------------------------

namespace Iri

/- A text without its fragment. -/
def withoutFragment
    (text : String) : Except Fault String :=
  if text.toList.contains '#' then
    match Reference.split [] text.toList with
    | .error fault => .error fault
    | .ok r => .ok (String.ofList (Reference.join { r with fragment := [] }))
  else
    .ok text

/-
  The IRI that a reference names, seen from a base. An empty
  reference names the base without its fragment, and one with
  a scheme names itself.
-/
def resolve
    (base reference : String) : Except Fault String :=
  let trimmed := Text.trim reference
  if trimmed.isEmpty then
    withoutFragment base
  else if (scheme? trimmed.toList).isSome then
    .ok trimmed
  else
    match Reference.against base.toList trimmed.toList with
    | .error fault => .error fault
    | .ok text => .ok (String.ofList text)

/- Schemes whose IRIs have no authority. -/
def opaqueSchemes : List String :=
  ["data", "did", "doi", "geo", "info", "isbn", "mailto", "news",
    "sms", "tag", "tel", "urn", "uuid"]

/-
  Whether a text is meant as an absolute IRI: it has a scheme
  with an authority, or one that is known to have none.
-/
def looksAbsolute
    (text : String) : Bool :=
  match scheme? text.toList with
  | none => false
  | some (scheme, rest) =>
      Text.startsWith ['/', '/'] rest ||
        Reference.isAmong opaqueSchemes (scheme.map Text.asciiLowerChar)

end Iri
end LinkedMarkup
