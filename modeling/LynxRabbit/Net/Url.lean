/-
# URLs, taken apart and put together

`url.Parse`, `URL.EscapedPath` and `URL.String` of Go's `net/url`, over bytes.

`parse` splits a URL as the source does: the fragment behind the first `#`, a
scheme, the query behind the first `?`, an authority behind `//`, and the path,
which is unescaped.  A rest that does not start with a slash behind a scheme is
`Opaque`, here `rootless`.  An authority is rejected for the characters of its user or
its host and for a port that is not a number.  What stands in the brackets of an IP
literal is not looked at.

`pathOf` reads the path of a URL and nothing else; it is what `parse` finds,
`pathOf_of_parse`.  `pathOf_string` says what it finds in a URL that `String` has
put together: the text behind the scheme, split again.
-/

import LynxRabbit.Net.Escape

namespace LynxRabbit
namespace Net

/-- `url.Userinfo`. -/
structure Userinfo where
  username : Bytes
  password : Option Bytes := none
deriving DecidableEq, Repr

/-- `url.URL`; `rootless` is `Opaque`. -/
structure URL where
  scheme : Bytes := []
  rootless : Bytes := []
  user : Option Userinfo := none
  host : Bytes := []
  path : Bytes := []
  rawPath : Bytes := []
  omitHost : Bool := false
  forceQuery : Bool := false
  rawQuery : Bytes := []
  fragment : Bytes := []
  rawFragment : Bytes := []
deriving DecidableEq, Repr

/-- The two results of `strings.Cut` at a byte. -/
def before (c : UInt8) (s : Bytes) : Bytes := s.takeWhile (· != c)
def after (c : UInt8) (s : Bytes) : Bytes := (s.dropWhile (· != c)).drop 1

/-- A byte below a space, or DEL. -/
def isControl (c : UInt8) : Bool := c < 0x20 || c == 0x7F

def isSchemeByte (c : UInt8) : Bool := isLetter c || isDigit c || oneOf "+-." c

/-- `strings.ToLower`, on the bytes of a scheme. -/
def toLower (c : UInt8) : UInt8 := if isUpper c then c + 0x20 else c

/-- `getScheme`: the scheme, empty when there is none, and what follows it. -/
def getScheme (s : Bytes) : Option (Bytes × Bytes) :=
  match s.dropWhile isSchemeByte with
  | [] => some ([], s)
  | c :: rest =>
    if c = colon then
      match s.takeWhile isSchemeByte with
      | [] => none
      | a :: scheme => if isLetter a then some (a :: scheme, rest) else some ([], s)
    else some ([], s)

/-- An authority follows: two slashes, and without a scheme no third one. -/
def hasAuthority (scheme rest : Bytes) : Bool :=
  [slash, slash].isPrefixOf rest &&
    (!scheme.isEmpty || !([slash, slash, slash].isPrefixOf rest))

/-- The bytes that `validUserinfo` lets through. -/
def isUserinfoByte (c : UInt8) : Bool :=
  isLetter c || isDigit c || oneOf "-._:~!$&'()*+,;=%@" c

/-- `validUserinfo`. -/
def validUserinfo (s : Bytes) : Bool := s.all isUserinfoByte

/-- `validOptionalPort`: empty, or a colon and digits. -/
def validOptionalPort : Bytes → Bool
  | [] => true
  | c :: s => c == colon && s.all isDigit

/-- What stands behind the last `c`. -/
def behind (c : UInt8) (s : Bytes) : Bytes := (s.reverse.takeWhile (· != c)).reverse

/-- `parseHost`: an IP literal in brackets, or a name, and a port. -/
def parseHost (s : Bytes) : Option Bytes :=
  if s.contains openBracket then
    if s.head? = some openBracket ∧ (s.drop 1).contains openBracket = false ∧
        s.contains closeBracket = true ∧ validOptionalPort (behind closeBracket s) = true then
      unescape s
    else none
  else if validOptionalPort (s.dropWhile (· != colon)) then unescapeHost s
  else none

/-- `parseAuthority`: the user before the last `@`, and the host behind it. -/
def parseAuthority (s : Bytes) : Option (Option Userinfo × Bytes) :=
  match parseHost (behind atSign s) with
  | none => none
  | some host =>
    if s.contains atSign then
      let userinfo := s.take (s.length - (behind atSign s).length - 1)
      let password := if userinfo.contains colon then some (after colon userinfo) else none
      if validUserinfo userinfo then
        match unescape (before colon userinfo), unescape (password.getD []) with
        | some u, some p => some (some ⟨u, password.map fun _ => p⟩, host)
        | _, _ => none
      else none
    else some (none, host)

/-- `setPath`: `RawPath` is kept when it is not the default encoding. -/
def URL.setPath (u : URL) (p : Bytes) : Option URL :=
  (unescape p).map fun path =>
    { u with path := path, rawPath := if p = escape .path path then [] else p }

/-- `setFragment`. -/
def URL.setFragment (u : URL) (f : Bytes) : Option URL :=
  (unescape f).map fun fragment =>
    { u with
      fragment := fragment
      rawFragment := if f = escape .fragment fragment then [] else f }

/-- `parse`, behind the scheme; `u` has the scheme and the query. -/
def URL.parseRest (u : URL) (rest : Bytes) : Option URL :=
  if rest.head? = some slash then
    if hasAuthority u.scheme rest then
      match parseAuthority (before slash (rest.drop 2)) with
      | none => none
      | some (user, host) =>
        URL.setPath { u with user := user, host := host } ((rest.drop 2).dropWhile (· != slash))
    else URL.setPath { u with omitHost := !u.scheme.isEmpty } rest
  else if u.scheme ≠ [] then some { u with rootless := rest }
  else if (before slash rest).contains colon then none
  else u.setPath rest

/-- `parse`, without the fragment. -/
def parseBody (s : Bytes) : Option URL :=
  if s.any isControl then none
  else if s = bytes "*" then some { path := bytes "*" }
  else match getScheme s with
    | none => none
    | some (scheme, rest) =>
      URL.parseRest
        { scheme := scheme.map toLower
          forceQuery := rest.contains question && (after question rest).isEmpty
          rawQuery := after question rest } (before question rest)

/-- `url.Parse`; `none` is an error. -/
def parse (raw : Bytes) : Option URL :=
  match parseBody (before hash raw) with
  | none => none
  | some u => if after hash raw = [] then some u else u.setFragment (after hash raw)

/-- `validEncoded`. -/
def validEncoded (mode : Encoding) (s : Bytes) : Bool :=
  s.all fun c => oneOf "!$&'()*+,;=:@[]%" c || !shouldEscape mode c

/-- `EscapedPath`. -/
def URL.escapedPath (u : URL) : Bytes :=
  if u.rawPath ≠ [] ∧ validEncoded .path u.rawPath = true ∧ unescape u.rawPath = some u.path then
    u.rawPath
  else if u.path = bytes "*" then bytes "*"
  else escape .path u.path

/-- `EscapedFragment`. -/
def URL.escapedFragment (u : URL) : Bytes :=
  if u.rawFragment ≠ [] ∧ validEncoded .fragment u.rawFragment = true ∧
      unescape u.rawFragment = some u.fragment then u.rawFragment
  else escape .fragment u.fragment

/-- `Userinfo.String`. -/
def Userinfo.string (ui : Userinfo) : Bytes :=
  escape .userPassword ui.username ++
    match ui.password with
    | none => []
    | some p => colon :: escape .userPassword p

/-- `String` writes `//`, the user and the host. -/
def URL.printsAuthority (u : URL) : Bool :=
  decide (u.scheme ≠ [] ∨ u.host ≠ [] ∨ u.user ≠ none) &&
    !decide (u.omitHost = true ∧ u.host = [] ∧ u.user = none) &&
    decide (u.host ≠ [] ∨ u.path ≠ [] ∨ u.user ≠ none)

/-- The user with its `@`, and the host. -/
def URL.authority (u : URL) : Bytes :=
  (match u.user with
    | none => []
    | some ui => ui.string ++ [atSign]) ++ escape .host u.host

/-- The authority as `String` writes it. -/
def URL.authorityPart (u : URL) : Bytes :=
  if u.printsAuthority then slash :: slash :: u.authority else []

/-- The path as `String` writes it: a slash in front behind a host, and `./` in
front of a relative path with a colon in its first segment. -/
def URL.pathPart (u : URL) : Bytes :=
  if u.escapedPath ≠ [] ∧ u.escapedPath.head? ≠ some slash ∧ u.host ≠ [] then
    slash :: u.escapedPath
  else if u.scheme = [] ∧ u.authorityPart = [] ∧ (before slash u.escapedPath).contains colon then
    bytes "./" ++ u.escapedPath
  else u.escapedPath

/-- What `String` writes between the scheme and the query. -/
def URL.body (u : URL) : Bytes :=
  if u.rootless ≠ [] then u.rootless else u.authorityPart ++ u.pathPart

/-- `String`. -/
def URL.string (u : URL) : Bytes :=
  (if u.scheme = [] then [] else u.scheme ++ [colon]) ++ u.body ++
    (if u.forceQuery = true ∨ u.rawQuery ≠ [] then question :: u.rawQuery else []) ++
    (if u.fragment = [] then [] else hash :: u.escapedFragment)

/-! ### The path of a URL -/

/-- The escaped path in what follows the scheme. -/
def rawPathOf (scheme rest : Bytes) : Bytes :=
  if rest.head? = some slash then
    if hasAuthority scheme rest then (rest.drop 2).dropWhile (· != slash) else rest
  else if scheme ≠ [] then [] else rest

/-- The path of a URL. -/
def pathOf (s : Bytes) : Option Bytes :=
  match getScheme (before hash s) with
  | none => none
  | some (scheme, rest) => unescape (rawPathOf scheme (before question rest))

theorem URL.setPath_path {u u' : URL} {p : Bytes} (h : u.setPath p = some u') :
    unescape p = some u'.path := by
  obtain ⟨path, hp, rfl⟩ := Option.map_eq_some_iff.1 h
  exact hp

theorem hasAuthority_map (scheme rest : Bytes) (f : UInt8 → UInt8) :
    hasAuthority (scheme.map f) rest = hasAuthority scheme rest := by
  cases scheme <;> rfl

theorem URL.parseRest_path {u u' : URL} {rest : Bytes} (hu : u.path = [])
    (h : u.parseRest rest = some u') : unescape (rawPathOf u.scheme rest) = some u'.path := by
  unfold URL.parseRest at h
  unfold rawPathOf
  split_ifs at h ⊢ with hs ha hsch hcol
  · split at h
    · cases h
    · exact setPath_path h
  · exact setPath_path h
  · cases h
    rw [hu]
    rfl
  · exact setPath_path h

/-- **What `parse` finds.** -/
theorem pathOf_of_parse {s : Bytes} {u : URL} (h : parse s = some u) : pathOf s = some u.path := by
  have hbody : ∀ {t : Bytes} {u : URL}, parseBody t = some u →
      (match getScheme t with
        | none => none
        | some (scheme, rest) => unescape (rawPathOf scheme (before question rest))) =
        some u.path := by
    intro t u h
    unfold parseBody at h
    split_ifs at h with hctl hstar
    · cases h
      subst hstar
      decide
    · cases hg : getScheme t with
      | none => rw [hg] at h; cases h
      | some q =>
          obtain ⟨scheme, rest⟩ := q
          rw [hg] at h
          have hp := URL.parseRest_path rfl h
          simp only at hp ⊢
          rw [← hp]
          unfold rawPathOf
          rw [hasAuthority_map]
          simp only [ne_eq, List.map_eq_nil_iff]
  unfold parse at h
  split at h
  · cases h
  · rename_i v hv
    unfold pathOf
    rw [hbody hv]
    split_ifs at h
    · cases h
      rfl
    · obtain ⟨f, -, rfl⟩ := Option.map_eq_some_iff.1 h
      rfl

/-! ### Splitting what was put together -/

theorem before_append {c : UInt8} {xs ys : Bytes} (h : c ∉ xs) (hy : ys = [] ∨ ∃ t, ys = c :: t) :
    before c (xs ++ ys) = xs := by
  have hne : ∀ x ∈ xs, (x != c) = true := fun x hx => bne_iff_ne.2 fun he => h (he ▸ hx)
  unfold before
  rw [List.takeWhile_append_of_pos hne]
  rcases hy with rfl | ⟨t, rfl⟩
  · simp
  · simp

theorem notMem_before (c : UInt8) (s : Bytes) : c ∉ before c s := by
  intro h
  have hne : (c != c) = true :=
    List.all_eq_true.1 (List.all_takeWhile (p := fun x => x != c) (l := s)) c h
  simp at hne

theorem mem_of_mem_before {c d : UInt8} {s : Bytes} (h : d ∈ before c s) : d ∈ s :=
  (List.takeWhile_sublist _).mem h

theorem mem_of_mem_after {c d : UInt8} {s : Bytes} (h : d ∈ after c s) : d ∈ s :=
  (List.dropWhile_sublist _).mem ((List.drop_sublist _ _).mem h)

theorem dropWhile_ne_append {c : UInt8} {xs : Bytes} (h : c ∉ xs) (ys : Bytes) :
    (xs ++ ys).dropWhile (· != c) = ys.dropWhile (· != c) :=
  List.dropWhile_append_of_pos fun _ hx => bne_iff_ne.2 fun he => h (he ▸ hx)

/-- A scheme as `getScheme` returns it. -/
def IsScheme (s : Bytes) : Prop :=
  s = [] ∨ (∃ a t, s = a :: t ∧ isLetter a = true) ∧ ∀ c ∈ s, isSchemeByte c = true

theorem getScheme_append {scheme rest : Bytes} (h : IsScheme scheme) (hne : scheme ≠ []) :
    getScheme (scheme ++ colon :: rest) = some (scheme, rest) := by
  rcases h with h | ⟨⟨a, t, rfl, ha⟩, hall⟩
  · exact absurd h hne
  · have hcolon : isSchemeByte colon = false := by decide
    unfold getScheme
    rw [List.dropWhile_append_of_pos hall, List.takeWhile_append_of_pos hall,
      List.dropWhile_cons, List.takeWhile_cons, hcolon]
    simp [ha]

/-- Without a colon before the query there is no scheme. -/
theorem getScheme_of_notMem {s q : Bytes} (h : colon ∉ s) (hq : q = [] ∨ ∃ t, q = question :: t) :
    getScheme (s ++ q) = some ([], s ++ q) := by
  have hstop : (s ++ q).dropWhile isSchemeByte = [] ∨
      ∃ c r, (s ++ q).dropWhile isSchemeByte = c :: r ∧ c ≠ colon := by
    induction s with
    | nil =>
        rcases hq with rfl | ⟨t, rfl⟩
        · exact .inl rfl
        · exact .inr ⟨question, t, rfl, by decide⟩
    | cons c s ih =>
        rw [List.cons_append, List.dropWhile_cons]
        split_ifs with hc
        · exact ih fun hm => h (List.mem_cons_of_mem _ hm)
        · exact .inr ⟨c, s ++ q, rfl, fun he => h (he ▸ List.mem_cons_self)⟩
  unfold getScheme
  rcases hstop with hnil | ⟨c, r, hc, hne⟩
  · rw [hnil]
  · rw [hc]
    simp only
    rw [if_neg hne]

theorem getScheme_of_slash {s : Bytes} (h : s.head? = some slash) :
    getScheme s = some ([], s) := by
  cases s with
  | nil => cases h
  | cons c s =>
      obtain rfl : c = slash := Option.some.inj h
      rfl

/-- **What `pathOf` finds in what `String` has written.** -/
theorem pathOf_string {u : URL} (hs : IsScheme u.scheme) (hq : hash ∉ u.rawQuery)
    (hbh : hash ∉ u.body) (hbq : question ∉ u.body)
    (hc : u.scheme = [] → u.body.head? = some slash ∨ colon ∉ u.body) :
    pathOf u.string = unescape (rawPathOf u.scheme u.body) := by
  obtain ⟨query, hquery, hqhash, hqform⟩ : ∃ query,
      query = (if u.forceQuery = true ∨ u.rawQuery ≠ [] then question :: u.rawQuery else []) ∧
      hash ∉ query ∧ (query = [] ∨ ∃ t, query = question :: t) := by
    refine ⟨_, rfl, ?_, ?_⟩
    · split_ifs
      · exact fun hm => (List.mem_cons.1 hm).elim (by decide) hq
      · exact List.not_mem_nil
    · split_ifs
      · exact .inr ⟨_, rfl⟩
      · exact .inl rfl
  have hfrag : ∀ f : Bytes, (if u.fragment = [] then [] else hash :: f) = [] ∨
      ∃ t, (if u.fragment = [] then [] else hash :: f) = hash :: t := by
    intro f
    split_ifs
    · exact .inl rfl
    · exact .inr ⟨_, rfl⟩
  unfold pathOf URL.string
  rw [← hquery]
  by_cases hsch : u.scheme = []
  · have hno : hash ∉ u.body ++ query := by
      rw [List.mem_append]
      exact fun h => h.elim hbh hqhash
    have hget : getScheme (u.body ++ query) = some ([], u.body ++ query) := by
      rcases hc hsch with hslash | hcol
      · refine getScheme_of_slash ?_
        rw [List.head?_append, hslash]
        rfl
      · exact getScheme_of_notMem hcol hqform
    rw [if_pos hsch, List.nil_append, before_append hno (hfrag _), hget]
    simp only
    rw [before_append hbq hqform, hsch]
  · have hschash : hash ∉ u.scheme := by
      rcases hs with h | ⟨-, hall⟩
      · exact absurd h hsch
      · exact fun h => absurd (hall _ h) (by decide)
    have hno : hash ∉ u.scheme ++ [colon] ++ u.body ++ query := by
      simp only [List.mem_append, List.mem_singleton, not_or]
      exact ⟨⟨⟨hschash, by decide⟩, hbh⟩, hqhash⟩
    rw [if_neg hsch, before_append hno (hfrag _)]
    simp only [List.append_assoc, List.cons_append, List.nil_append]
    rw [getScheme_append hs hsch]
    simp only
    rw [before_append hbq hqform]

/-- The path behind an authority. -/
theorem rawPathOf_authority {scheme auth : Bytes} (ha : slash ∉ auth)
    (h : scheme ≠ [] ∨ auth ≠ []) (e : Bytes) :
    rawPathOf scheme (slash :: slash :: auth ++ e) = e.dropWhile (· != slash) := by
  have hauth : hasAuthority scheme (slash :: slash :: auth ++ e) = true := by
    rcases h with h | h
    · cases scheme with
      | nil => exact absurd rfl h
      | cons a t => rfl
    · cases auth with
      | nil => exact absurd rfl h
      | cons a t =>
          have hne : (slash == a) = false := by
            simp only [beq_eq_false_iff_ne, ne_eq]
            rintro rfl
            exact ha List.mem_cons_self
          simp [hasAuthority, List.isPrefixOf, hne]
  unfold rawPathOf
  rw [if_pos (show (slash :: slash :: auth ++ e).head? = some slash from rfl), if_pos hauth]
  exact dropWhile_ne_append ha e

/-! ### What is accepted is well formed -/

/-- Empty, or with a slash in front. -/
def Rooted (p : Bytes) : Prop := p = [] ∨ ∃ t, p = slash :: t

theorem Rooted.unescape {p q : Bytes} (h : Rooted p) (hq : unescape p = some q) : Rooted q := by
  rcases h with rfl | ⟨t, rfl⟩
  · cases hq
    exact .inl rfl
  · rw [unescape_literal (by decide)] at hq
    obtain ⟨r, -, rfl⟩ := Option.map_eq_some_iff.1 hq
    exact .inr ⟨r, rfl⟩

theorem Rooted.escape {p : Bytes} (h : Rooted p) : Rooted (escape .path p) := by
  rcases h with rfl | ⟨t, rfl⟩
  · exact .inl rfl
  · rw [escape_cons (by decide)]
    exact .inr ⟨_, rfl⟩

/-- What `parse` guarantees of a URL. -/
structure URL.Parsed (u : URL) : Prop where
  scheme : IsScheme u.scheme
  query : hash ∉ u.rawQuery
  rootless : hash ∉ u.rootless ∧ question ∉ u.rootless ∧ u.rootless.head? ≠ some slash
  opaq : u.rootless ≠ [] → u.scheme ≠ [] ∧ u.path = []
  rooted : u.scheme ≠ [] ∨ u.host ≠ [] ∨ u.user ≠ none → Rooted u.path ∧ Rooted u.rawPath
  raw : u.rawPath = [] ∨ unescape u.rawPath = some u.path

theorem isLetter_toLower (c : UInt8) : isLetter c = true → isLetter (toLower c) = true := by
  intro h
  unfold toLower
  split_ifs with hu
  · simp only [isUpper, Bool.and_eq_true, decide_eq_true_eq] at hu
    have hlow : isLower (c + 0x20) = true := by
      simp only [isLower, Bool.and_eq_true, decide_eq_true_eq]
      simp only [UInt8.le_iff_toNat_le, UInt8.toNat_add, UInt8.reduceToNat] at hu ⊢
      omega
    rw [isLetter, hlow]
    rfl
  · exact h

theorem isSchemeByte_toLower (c : UInt8) (h : isSchemeByte c = true) :
    isSchemeByte (toLower c) = true := by
  unfold toLower
  split_ifs with hu
  · have hl : isLetter (toLower c) = true :=
      isLetter_toLower c (by rw [isLetter, hu, Bool.or_true])
    rw [toLower, if_pos hu] at hl
    rw [isSchemeByte, hl]
    rfl
  · exact h

theorem IsScheme.toLower {s : Bytes} (h : IsScheme s) : IsScheme (s.map toLower) := by
  rcases h with rfl | ⟨⟨a, t, rfl, ha⟩, hall⟩
  · exact .inl rfl
  · refine .inr ⟨⟨Net.toLower a, t.map Net.toLower, rfl, isLetter_toLower a ha⟩, fun c hc => ?_⟩
    obtain ⟨d, hd, rfl⟩ := List.mem_map.1 hc
    exact isSchemeByte_toLower d (hall d hd)

theorem isScheme_of_getScheme {s scheme rest : Bytes} (h : getScheme s = some (scheme, rest)) :
    IsScheme scheme ∧ ∀ c ∈ rest, c ∈ s := by
  unfold getScheme at h
  split at h
  · cases h
    exact ⟨.inl rfl, fun _ => id⟩
  · rename_i c r hdrop
    split_ifs at h with hc
    · split at h
      · cases h
      · rename_i a t htake
        split_ifs at h with ha
        · cases h
          refine ⟨.inr ⟨⟨a, t, rfl, ha⟩, fun d hd => ?_⟩, fun d hd => ?_⟩
          · rw [← htake] at hd
            exact List.all_eq_true.1 List.all_takeWhile d hd
          · refine (List.dropWhile_sublist isSchemeByte).mem ?_
            rw [hdrop]
            exact List.mem_cons_of_mem _ hd
        · cases h
          exact ⟨.inl rfl, fun _ => id⟩
    · cases h
      exact ⟨.inl rfl, fun _ => id⟩

theorem rooted_dropWhile (s : Bytes) : Rooted (s.dropWhile (· != slash)) := by
  cases h : s.dropWhile (· != slash) with
  | nil => exact .inl rfl
  | cons c t =>
      have hne : (c != slash) = false := by
        have := List.head?_dropWhile_not (· != slash) s
        rw [h] at this
        simpa using this
      have heq : c = slash := by simpa using hne
      exact .inr ⟨t, by rw [heq]⟩

/-- The path that `setPath` stores. -/
theorem URL.setPath_rooted {u u' : URL} {p : Bytes} (h : u.setPath p = some u') (hp : Rooted p) :
    Rooted u'.path ∧ Rooted u'.rawPath := by
  obtain ⟨path, hpath, rfl⟩ := Option.map_eq_some_iff.1 h
  refine ⟨hp.unescape hpath, ?_⟩
  show Rooted (if p = Net.escape .path path then [] else p)
  split_ifs
  · exact .inl rfl
  · exact hp

theorem URL.setPath_raw {u u' : URL} {p : Bytes} (h : u.setPath p = some u') :
    u'.rawPath = [] ∨ unescape u'.rawPath = some u'.path := by
  obtain ⟨path, hpath, rfl⟩ := Option.map_eq_some_iff.1 h
  show (if p = Net.escape .path path then [] else p) = [] ∨
    unescape (if p = Net.escape .path path then [] else p) = some path
  split_ifs
  · exact .inl rfl
  · exact .inr hpath

theorem URL.parseRest_parsed {u u' : URL} {rest : Bytes} (hs : IsScheme u.scheme)
    (hq : hash ∉ u.rawQuery)
    (hfresh : u.rootless = [] ∧ u.path = [] ∧ u.rawPath = [] ∧ u.host = [] ∧ u.user = none)
    (hh : hash ∉ rest) (hqu : question ∉ rest) (h : u.parseRest rest = some u') : u'.Parsed := by
  obtain ⟨hrl, hpath, hraw, hhost, huser⟩ := hfresh
  have hnone : ∀ {v : URL}, v.rootless = [] →
      hash ∉ v.rootless ∧ question ∉ v.rootless ∧ v.rootless.head? ≠ some slash := by
    intro v hv
    rw [hv]
    exact ⟨List.not_mem_nil, List.not_mem_nil, by decide⟩
  -- the branches that end in `setPath`
  have hset : ∀ {v : URL} {p : Bytes}, v.setPath p = some u' → v.scheme = u.scheme →
      v.rawQuery = u.rawQuery → v.rootless = [] →
      (v.scheme ≠ [] ∨ v.host ≠ [] ∨ v.user ≠ none → Rooted p) → u'.Parsed := by
    intro v p hv hvs hvq hvr hroot
    have hboth := fun hp => URL.setPath_rooted hv hp
    have hraw := URL.setPath_raw hv
    obtain ⟨path, -, rfl⟩ := Option.map_eq_some_iff.1 hv
    exact {
      scheme := hvs ▸ hs
      query := hvq ▸ hq
      rootless := hnone hvr
      opaq := fun hne => absurd hvr hne
      rooted := fun hor => hboth (hroot hor)
      raw := hraw }
  unfold URL.parseRest at h
  split_ifs at h with hslash hauth hsch hcol
  · split at h
    · cases h
    · exact hset h rfl rfl hrl fun _ => rooted_dropWhile _
  · refine hset h rfl rfl hrl fun _ => ?_
    cases rest with
    | nil => exact .inl rfl
    | cons c t => exact .inr ⟨t, by rw [Option.some.inj hslash]⟩
  · cases h
    exact {
      scheme := hs
      query := hq
      rootless := ⟨hh, hqu, hslash⟩
      opaq := fun _ => ⟨hsch, hpath⟩
      rooted := fun _ => ⟨.inl hpath, .inl hraw⟩
      raw := .inl hraw }
  · refine hset h rfl rfl hrl fun hor => ?_
    rcases hor with h1 | h1 | h1
    · exact absurd h1 hsch
    · exact absurd hhost h1
    · exact absurd huser h1

/-- **What `parse` accepts is well formed.** -/
theorem parsed_of_parse {s : Bytes} {u : URL} (h : parse s = some u) : u.Parsed := by
  have hbody : ∀ {t : Bytes} {u : URL}, hash ∉ t → parseBody t = some u → u.Parsed := by
    intro t u hh h
    unfold parseBody at h
    split_ifs at h with hctl hstar
    · cases h
      exact {
        scheme := .inl rfl
        query := List.not_mem_nil
        rootless := ⟨List.not_mem_nil, List.not_mem_nil, by decide⟩
        opaq := fun hne => absurd rfl hne
        rooted := fun hor => by simp at hor
        raw := .inl rfl }
    · split at h
      · cases h
      · rename_i scheme rest hget
        obtain ⟨hs, hmem⟩ := isScheme_of_getScheme hget
        have hrest : hash ∉ rest := fun hm => hh (hmem _ hm)
        exact URL.parseRest_parsed hs.toLower (fun hm => hrest (mem_of_mem_after hm))
          ⟨rfl, rfl, rfl, rfl, rfl⟩ (fun hm => hrest (mem_of_mem_before hm))
          (notMem_before question rest) h
  unfold parse at h
  split at h
  · cases h
  · rename_i v hv
    have hp := hbody (notMem_before hash s) hv
    split_ifs at h
    · cases h
      exact hp
    · obtain ⟨f, -, rfl⟩ := Option.map_eq_some_iff.1 h
      exact ⟨hp.scheme, hp.query, hp.rootless, hp.opaq, hp.rooted, hp.raw⟩

/-! ### The parts of a printed URL -/

theorem bytes_star : bytes "*" = [0x2A] := by decide

theorem URL.unescape_escapedPath (u : URL) : unescape u.escapedPath = some u.path := by
  unfold URL.escapedPath
  split_ifs with hraw hstar
  · exact hraw.2.2
  · rw [hstar]
    decide
  · exact unescape_escape .path u.path

/-- A delimiter that paths escape does not occur in an escaped path. -/
theorem URL.notMem_escapedPath {c : UInt8} (hp : Plain c) (he : shouldEscape .path c = true)
    (hv : oneOf "!$&'()*+,;=:@[]%" c = false) (u : URL) : c ∉ u.escapedPath := by
  unfold URL.escapedPath
  split_ifs with hraw hstar
  · intro hm
    have := List.all_eq_true.1 hraw.2.1 c hm
    rw [hv, he] at this
    cases this
  · intro hm
    rw [bytes_star] at hm
    obtain rfl := List.mem_singleton.1 hm
    exact absurd hv (by decide)
  · exact notMem_escape hp he u.path

theorem URL.rooted_escapedPath {u : URL} (hp : Rooted u.path) (hr : Rooted u.rawPath) :
    Rooted u.escapedPath := by
  unfold URL.escapedPath
  split_ifs with hraw hstar
  · exact hr
  · rw [hstar, bytes_star] at hp
    rcases hp with h | ⟨t, h⟩
    · cases h
    · exact absurd (List.cons.inj h).1 (by decide)
  · exact hp.escape

/-- A delimiter that users and hosts escape does not occur in an authority. -/
theorem URL.notMem_authority {c : UInt8} (hp : Plain c) (hu : shouldEscape .userPassword c = true)
    (hh : shouldEscape .host c = true) (hc : c ≠ colon) (ha : c ≠ atSign) (u : URL) :
    c ∉ u.authority := by
  have huser : ∀ ui : Userinfo, c ∉ ui.string := by
    intro ui hm
    unfold Userinfo.string at hm
    rcases List.mem_append.1 hm with hm | hm
    · exact notMem_escape hp hu _ hm
    · split at hm
      · cases hm
      · rcases List.mem_cons.1 hm with h | hm
        · exact hc h
        · exact notMem_escape hp hu _ hm
  intro hm
  rcases List.mem_append.1 hm with hm | hm
  · split at hm
    · cases hm
    · rename_i ui _
      rcases List.mem_append.1 hm with hm | hm
      · exact huser ui hm
      · exact ha (List.mem_singleton.1 hm)
  · exact notMem_escape hp hh _ hm

theorem URL.slash_notMem_authority (u : URL) : slash ∉ u.authority :=
  u.notMem_authority (by decide) (by decide) (by decide) (by decide) (by decide)

theorem URL.authority_ne_nil {u : URL} (h : u.host ≠ [] ∨ u.user ≠ none) : u.authority ≠ [] := by
  unfold URL.authority
  rcases h with h | h
  · simp [escape_nil_iff, h]
  · cases hu : u.user with
    | none => exact absurd hu h
    | some ui => simp

/-! ### The path of a printed URL -/

/-- What `pathOf` reads where `String` wrote the path. -/
def URL.readBack (u : URL) : Bytes :=
  if u.printsAuthority then u.escapedPath.dropWhile (· != slash)
  else rawPathOf u.scheme u.escapedPath

/-- The path is not taken for a host, nor its beginning. -/
def URL.keepsPath (u : URL) : Prop :=
  if u.printsAuthority = true then Rooted u.escapedPath
  else hasAuthority u.scheme u.escapedPath = false

/-- A path that starts with a slash behind a host and has no colon is printed as it
is. -/
theorem URL.pathPart_eq {u : URL} (hhost : u.host ≠ [] → Rooted u.escapedPath)
    (hc : colon ∉ u.escapedPath) : u.pathPart = u.escapedPath := by
  unfold URL.pathPart
  rw [if_neg, if_neg]
  · rintro ⟨-, -, hm⟩
    exact hc (mem_of_mem_before (List.contains_iff_mem.1 hm))
  · rintro ⟨hne, hhead, hh⟩
    rcases hhost hh with h | ⟨t, h⟩
    · exact hne h
    · rw [h] at hhead
      exact hhead rfl

theorem URL.notMem_authorityPart {u : URL} {c : UInt8} (ha : c ∉ u.authority) (hs : c ≠ slash) :
    c ∉ u.authorityPart := by
  intro hm
  unfold URL.authorityPart at hm
  split_ifs at hm
  · rcases List.mem_cons.1 hm with h | hm
    · exact hs h
    · rcases List.mem_cons.1 hm with h | hm
      · exact hs h
      · exact ha hm
  · cases hm

/-- **The path of a printed URL is read where it was written.** -/
theorem URL.pathOf_string_path {u : URL} (hs : IsScheme u.scheme) (hq : hash ∉ u.rawQuery)
    (hr : u.rootless = []) (hhost : u.host ≠ [] → Rooted u.escapedPath) (hc : colon ∉ u.path) :
    pathOf u.string = unescape u.readBack := by
  have hcolon : colon ∉ u.escapedPath :=
    fun hm => hc (mem_of_unescape (by decide) u.unescape_escapedPath hm)
  have hbody : u.body = u.authorityPart ++ u.escapedPath := by
    unfold URL.body
    rw [if_neg (not_not_intro hr), URL.pathPart_eq hhost hcolon]
  -- neither part contains a delimiter of the query or the fragment
  have hno : ∀ {c : UInt8}, c ∉ u.authority → c ≠ slash → c ∉ u.escapedPath → c ∉ u.body := by
    intro c ha hs hp
    rw [hbody, List.mem_append]
    exact fun h => h.elim (URL.notMem_authorityPart ha hs) hp
  have hhash : hash ∉ u.body :=
    hno (u.notMem_authority (by decide) (by decide) (by decide) (by decide) (by decide))
      (by decide) (u.notMem_escapedPath (by decide) (by decide) (by decide))
  have hquestion : question ∉ u.body :=
    hno (u.notMem_authority (by decide) (by decide) (by decide) (by decide) (by decide))
      (by decide) (u.notMem_escapedPath (by decide) (by decide) (by decide))
  by_cases hp : u.printsAuthority = true
  · have hpart : u.authorityPart = slash :: slash :: u.authority := if_pos hp
    have hsome : u.scheme ≠ [] ∨ u.authority ≠ [] := by
      simp only [URL.printsAuthority, Bool.and_eq_true, decide_eq_true_eq] at hp
      rcases hp.1.1 with h | h
      · exact .inl h
      · exact .inr (URL.authority_ne_nil h)
    rw [pathOf_string hs hq hhash hquestion fun _ => .inl (by rw [hbody, hpart]; rfl), hbody,
      hpart, rawPathOf_authority u.slash_notMem_authority hsome]
    unfold URL.readBack
    rw [if_pos hp]
  · have hpart : u.authorityPart = [] := if_neg hp
    have hb : u.body = u.escapedPath := by rw [hbody, hpart, List.nil_append]
    rw [pathOf_string hs hq hhash hquestion fun _ => .inr (hb ▸ hcolon), hb]
    unfold URL.readBack
    rw [if_neg hp]

/-- A rest without a slash in front has no path. -/
theorem URL.pathOf_string_rootless {u : URL} (hs : IsScheme u.scheme) (hsch : u.scheme ≠ [])
    (hq : hash ∉ u.rawQuery) (hr : u.rootless ≠ [])
    (h : hash ∉ u.rootless ∧ question ∉ u.rootless ∧ u.rootless.head? ≠ some slash) :
    pathOf u.string = some [] := by
  have hb : u.body = u.rootless := if_pos hr
  obtain ⟨hh, hquestion, hslash⟩ := h
  rw [pathOf_string hs hq (hb ▸ hh) (hb ▸ hquestion) fun h => absurd h hsch, hb]
  unfold rawPathOf
  rw [if_neg hslash, if_pos hsch]
  rfl

theorem URL.readBack_of_keepsPath {u : URL} (hs : u.scheme ≠ [] → Rooted u.escapedPath)
    (h : u.keepsPath) : u.readBack = u.escapedPath := by
  unfold URL.keepsPath at h
  unfold URL.readBack
  split_ifs at h ⊢ with hp
  · rcases h with h | ⟨t, h⟩
    · rw [h]
      rfl
    · rw [h]
      rfl
  · unfold rawPathOf
    rw [h, if_neg Bool.false_ne_true]
    split_ifs with hhead hsch
    · rfl
    · rcases hs hsch with he | ⟨t, he⟩
      · exact he.symm
      · rw [he] at hhead
        exact absurd rfl hhead
    · rfl

/-- What is left of a text behind its first slash. -/
theorem unescape_dropWhile {s p : Bytes} (h : unescape s = some p) :
    (slash ∉ s ∧ unescape (s.dropWhile (· != slash)) = some []) ∨
      ∃ xs ys p₁ p₂, s = xs ++ slash :: ys ∧ unescape xs = some p₁ ∧ p = p₁ ++ slash :: p₂ ∧
        unescape (s.dropWhile (· != slash)) = some (slash :: p₂) := by
  by_cases hm : slash ∈ s
  · obtain ⟨xs, ys, rfl, hxs⟩ := List.eq_append_cons_of_mem hm
    obtain ⟨p₁, p₂, h₁, h₂, rfl⟩ := unescape_split (by decide) h
    refine .inr ⟨xs, ys, p₁, p₂, rfl, h₁, rfl, ?_⟩
    rw [dropWhile_ne_append hxs, List.dropWhile_cons_of_neg (by simp),
      unescape_literal (by decide), h₂]
    rfl
  · refine .inl ⟨hm, ?_⟩
    rw [← List.append_nil s, dropWhile_ne_append hm]
    rfl

/-- **A path that is not kept comes back shorter.** -/
theorem URL.readBack_short {u : URL} (h : ¬ u.keepsPath) :
    ∃ q, unescape u.readBack = some q ∧
      (q = [] ∨ ∃ p, q = slash :: p ∧ p.length + 2 ≤ u.path.length) := by
  have hpath := u.unescape_escapedPath
  unfold URL.keepsPath at h
  unfold URL.readBack
  split_ifs at h ⊢ with hp
  · rcases unescape_dropWhile hpath with ⟨-, h₀⟩ | ⟨xs, ys, p₁, p₂, he, h₁, hpq, h₂⟩
    · exact ⟨[], h₀, .inl rfl⟩
    · refine ⟨slash :: p₂, h₂, .inr ⟨p₂, rfl, ?_⟩⟩
      -- something stands in front of the first slash
      have hne : p₁ ≠ [] := by
        rintro rfl
        obtain rfl := unescape_eq_nil h₁
        exact h (.inr ⟨ys, he⟩)
      have hlen := List.length_pos_of_ne_nil hne
      rw [hpq]
      simp only [List.length_append, List.length_cons]
      omega
  · have hauth : hasAuthority u.scheme u.escapedPath = true := by simpa using h
    obtain ⟨t, ht⟩ : ∃ t, u.escapedPath = slash :: slash :: t := by
      have hpre := (Bool.and_eq_true_iff.1 hauth).1
      obtain ⟨t, ht⟩ := List.isPrefixOf_iff_prefix.1 hpre
      exact ⟨t, ht.symm⟩
    have hraw : rawPathOf u.scheme u.escapedPath = t.dropWhile (· != slash) := by
      unfold rawPathOf
      rw [hauth, ht]
      rfl
    rw [ht, unescape_literal (by decide), unescape_literal (by decide)] at hpath
    obtain ⟨q₁, hq₁, hq⟩ := Option.map_eq_some_iff.1 hpath
    obtain ⟨q₂, hq₂, rfl⟩ := Option.map_eq_some_iff.1 hq₁
    rw [hraw]
    rcases unescape_dropWhile hq₂ with ⟨-, h₀⟩ | ⟨xs, ys, p₁, p₂, -, -, rfl, h₂⟩
    · exact ⟨[], h₀, .inl rfl⟩
    · refine ⟨slash :: p₂, h₂, .inr ⟨p₂, rfl, ?_⟩⟩
      rw [← hq]
      simp only [List.length_append, List.length_cons]
      omega

end Net
end LynxRabbit
