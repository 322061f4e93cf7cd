/-
# The URL and the virtual host that are dialled

`buildDialURL` of `client.go`, and the arguments `dial` passes to
`amqp.DialConfig`.

A virtual host travels to the broker by two routes: as the path of the URL and as
`Config.Vhost`.  `DialConfig` takes `Config.Vhost` when it is not empty and the path
of the URL otherwise; a path that is empty or a single slash stands for the default
virtual host `/`.  `dial` always fills `Config.Vhost` with the configured virtual
host, which is never empty, and `buildDialURL` writes the configured one into the
URL, one leading slash removed, when the URL names none.

`effective_vhost_iff` says for which URLs and configurations both routes carry the
virtual host of the URL if it names one and the configured one otherwise.
-/

import LynxRabbit.Client.Setup
import LynxRabbit.Conf.Normalize
import LynxRabbit.Net.Url

namespace LynxRabbit

open Net

/-- `strings.TrimPrefix(s, "/")`. -/
def trimSlash : Bytes → Bytes
  | [] => []
  | c :: s => if c = slash then s else c :: s

/-- `buildDialURL`, the credentials: for a URL that omits the user. -/
def RabbitMQ.withCredentials (cfg : RabbitMQ) (u : URL) : URL :=
  if (u.user.all fun ui => ui.username.isEmpty) ∧ cfg.username ≠ "" then
    { u with user := some ⟨bytes cfg.username, some (bytes cfg.password)⟩ }
  else u

/-- `buildDialURL`, the virtual host: for a URL without a path. -/
def RabbitMQ.withVirtualHost (cfg : RabbitMQ) (u : URL) : URL :=
  let vhost := bytes cfg.virtualHost
  if (u.path = [] ∨ u.path = [slash]) ∧ vhost ≠ [] ∧ vhost ≠ [slash] then
    { u with path := slash :: trimSlash vhost }
  else u

/-- `buildDialURL`. -/
def RabbitMQ.buildDialURL (cfg : RabbitMQ) (raw : Bytes) : Bytes :=
  match parse raw with
  | none => raw
  | some u => (cfg.withVirtualHost (cfg.withCredentials u)).string

/-- `amqp.Config` as `dial` fills it. -/
structure AmqpConfig where
  vhost : Bytes
  heartbeat : Option ℤ
  locale : Bytes
  dialTimeout : Option ℤ
  tlsClientConfig : Bool
deriving DecidableEq, Repr

/-- What `dial` passes to `amqp.DialConfig`. -/
def RabbitMQ.dialArgs (cfg : RabbitMQ) : Except GoError (Bytes × AmqpConfig) :=
  match cfg.urls with
  | [] => .error (.errorf "no RabbitMQ URLs configured")
  | raw :: _ =>
    match validateVirtualHost cfg.virtualHost with
    | some e => .error (.wrapf "invalid virtual host" e)
    | none =>
      let dialURL := cfg.buildDialURL (bytes raw)
      .ok (dialURL,
        { vhost := bytes cfg.virtualHost
          heartbeat := cfg.heartbeat
          locale := bytes "en_US"
          dialTimeout := cfg.dialTimeout
          tlsClientConfig := (bytes "amqps://").isPrefixOf (dialURL.map toLower) })

/-- `dial` checks what `dialArgs` checks, and then dials. -/
theorem Client.dial_eq (s : Client) (o : Choice) :
    s.dial o =
      match s.config.dialArgs with
      | .error e => .error e
      | .ok _ =>
        match o.err with
        | some text =>
          .error (.wrapf ("failed to connect to RabbitMQ at " ++ s.config.urls.headD "")
            (.library text))
        | none => .ok ({ s with amqp := s.amqp.dial }, s.amqp.dialled) := by
  unfold Client.dial RabbitMQ.dialArgs
  cases s.config.urls with
  | nil => rfl
  | cons url urls => cases validateVirtualHost s.config.virtualHost <;> rfl

/-! ### The two routes -/

/-- The virtual host that a path stands for. -/
def vhostOf (path : Bytes) : Bytes :=
  if path = [] ∨ path = [slash] then [slash] else trimSlash path

/-- The virtual host that `amqp.DialConfig` opens. -/
def dialConfigVhost (url : Bytes) (conf : AmqpConfig) : Option Bytes :=
  if conf.vhost ≠ [] then some conf.vhost else (pathOf url).map vhostOf

/-- The path of the URL names a virtual host. -/
def namesVhost (u : URL) : Bool := decide (u.path ≠ [] ∧ u.path ≠ [slash])

/-- The virtual host of the URL when it names one, the configured one otherwise. -/
def RabbitMQ.effectiveVhost (cfg : RabbitMQ) (u : URL) : Bytes :=
  if namesVhost u then trimSlash u.path else bytes cfg.virtualHost

/-- `String` will write an authority in front of the path: there is a user, of the
URL or configured, or a host, or a scheme that was followed by `//`. -/
def RabbitMQ.writesAuthority (cfg : RabbitMQ) (u : URL) : Bool :=
  decide (cfg.username ≠ "" ∨ u.user ≠ none ∨ u.host ≠ [] ∨ u.scheme ≠ [] ∧ u.omitHost = false)

/-- The path will not be taken for a host, nor its beginning. -/
def RabbitMQ.keepsPath (cfg : RabbitMQ) (u : URL) : Bool :=
  if cfg.writesAuthority u then u.escapedPath.head? == some slash
  else !hasAuthority u.scheme u.escapedPath

/-- The configuration repeats the virtual host that the URL names; or the URL names
none, and the configured one is `/` or has no slash in front. -/
def RabbitMQ.vhostAgrees (cfg : RabbitMQ) (u : URL) : Bool :=
  if namesVhost u then
    bytes cfg.virtualHost == trimSlash u.path &&
      (cfg.keepsPath u || bytes cfg.virtualHost == [slash])
  else
    bytes cfg.virtualHost == [slash] ||
      (u.rootless.isEmpty && (bytes cfg.virtualHost).head? != some slash)

theorem dialConfigVhost_of_ne {url : Bytes} {conf : AmqpConfig} (h : conf.vhost ≠ []) :
    dialConfigVhost url conf = some conf.vhost :=
  if_pos h

theorem trimSlash_slash (p : Bytes) : trimSlash (slash :: p) = p := by rw [trimSlash, if_pos rfl]

theorem length_trimSlash (p : Bytes) : p.length ≤ (trimSlash p).length + 1 := by
  cases p with
  | nil => exact Nat.zero_le _
  | cons c p =>
      rw [trimSlash]
      split_ifs
      · exact le_rfl
      · exact Nat.le_succ _

theorem trimSlash_of_head {p : Bytes} (h : p.head? ≠ some slash) : trimSlash p = p := by
  cases p with
  | nil => rfl
  | cons c p => exact if_neg fun hc => h (congrArg some hc)

theorem eq_of_trimSlash_nil {s : Bytes} (h : trimSlash s = []) : s = [] ∨ s = [slash] := by
  cases s with
  | nil => exact .inl rfl
  | cons c s =>
      rw [trimSlash] at h
      split_ifs at h with hc
      exact .inr (by rw [hc, h])

theorem mem_of_mem_trimSlash {c : UInt8} {p : Bytes} (h : c ∈ trimSlash p) : c ∈ p := by
  cases p with
  | nil => exact h
  | cons d p =>
      rw [trimSlash] at h
      split_ifs at h
      · exact List.mem_cons_of_mem _ h
      · exact h

theorem colon_notMem_of_trimSlash {p : Bytes} (h : colon ∉ trimSlash p) : colon ∉ p := by
  cases p with
  | nil => exact h
  | cons d p =>
      rw [trimSlash] at h
      split_ifs at h with hd
      · exact fun hm => (List.mem_cons.1 hm).elim (by rw [hd]; decide) h
      · exact h

theorem vhostOf_of_names {u : URL} (h : namesVhost u = true) :
    vhostOf u.path = trimSlash u.path := by
  obtain ⟨h₁, h₂⟩ := of_decide_eq_true h
  exact if_neg (not_or_intro h₁ h₂)

theorem vhostOf_cons {p : Bytes} (h : p ≠ []) : vhostOf (slash :: p) = p := by
  unfold vhostOf
  rw [if_neg, trimSlash_slash]
  simp [h]

/-- A path that lost its beginning stands for `/` or for a short name. -/
theorem vhostOf_of_short {p q : Bytes}
    (h : q = [] ∨ ∃ t, q = slash :: t ∧ t.length + 2 ≤ p.length) :
    vhostOf q = [slash] ∨ 0 < (vhostOf q).length ∧ (vhostOf q).length + 2 ≤ p.length := by
  rcases h with rfl | ⟨t, rfl, hlen⟩
  · exact .inl rfl
  · by_cases ht : t = []
    · subst ht
      exact .inl rfl
    · rw [vhostOf_cons ht]
      exact .inr ⟨List.length_pos_of_ne_nil ht, hlen⟩

/-- What `dial` knows of the virtual host it passes on. -/
theorem vhost_of_validate {vhost : String} (h : validateVirtualHost vhost = none) :
    bytes vhost ≠ [] ∧ colon ∉ bytes vhost := by
  unfold validateVirtualHost validateName at h
  split_ifs at h with hempty hlong
  refine ⟨fun hb => hempty (bytes_eq_nil hb), fun hm => ?_⟩
  obtain ⟨c, hc, hval⟩ := exists_of_mem_bytes (by decide) hm
  obtain rfl : c = ':' := Char.toNat_inj.1 hval
  have hnone := Option.map_eq_none_iff.1 h
  exact List.find?_eq_none.1 hnone ':' (by decide) (List.contains_iff_mem.2 hc)

/-! ### The route through the URL -/

theorem RabbitMQ.withCredentials_eq (cfg : RabbitMQ) (u : URL) :
    ∃ user, cfg.withCredentials u = { u with user := user } ∧
      (user ≠ none ↔ cfg.username ≠ "" ∨ u.user ≠ none) := by
  unfold RabbitMQ.withCredentials
  split_ifs with h
  · exact ⟨_, rfl, by simp [h.2]⟩
  · refine ⟨u.user, rfl, fun hu => .inr hu, fun hor => ?_⟩
    intro hnone
    rw [hnone] at h hor
    exact h ⟨rfl, hor.resolve_right fun hn => hn rfl⟩

theorem RabbitMQ.printsAuthority_withCredentials (cfg : RabbitMQ) {u : URL} (h : u.path ≠ []) :
    (cfg.withCredentials u).printsAuthority = cfg.writesAuthority u := by
  obtain ⟨user, hu, huser⟩ := cfg.withCredentials_eq u
  rw [hu, Bool.eq_iff_iff]
  simp only [URL.printsAuthority, RabbitMQ.writesAuthority, Bool.and_eq_true, Bool.not_eq_true',
    decide_eq_true_eq, decide_eq_false_iff_not]
  have hpath : u.host ≠ [] ∨ u.path ≠ [] ∨ user ≠ none := .inr (.inl h)
  by_cases hs : u.scheme = [] <;> by_cases hh : u.host = [] <;> cases u.omitHost <;>
    cases user <;> simp_all

/-- The printed path is read back as written when the path is kept. -/
theorem RabbitMQ.keepsPath_withCredentials (cfg : RabbitMQ) {u : URL} (h : u.path ≠ []) :
    (cfg.withCredentials u).keepsPath ↔ cfg.keepsPath u = true := by
  have hne : u.escapedPath ≠ [] := by
    intro he
    have := u.unescape_escapedPath
    rw [he] at this
    exact h (Option.some.inj this).symm
  have hroot : Rooted u.escapedPath ↔ (u.escapedPath.head? == some slash) = true := by
    rw [beq_iff_eq]
    constructor
    · rintro (he | ⟨t, he⟩)
      · exact absurd he hne
      · rw [he]
        rfl
    · intro hhead
      obtain ⟨t, ht⟩ := List.head?_eq_some_iff.1 hhead
      exact .inr ⟨t, ht⟩
  have hprints := cfg.printsAuthority_withCredentials h
  obtain ⟨user, hu, -⟩ := cfg.withCredentials_eq u
  unfold URL.keepsPath RabbitMQ.keepsPath
  rw [hprints, hu]
  split_ifs
  · exact hroot
  · rw [Bool.not_eq_true']
    rfl

/-- The virtual host in a printed URL with a path. -/
theorem vhost_of_string {u : URL} (hs : IsScheme u.scheme) (hq : hash ∉ u.rawQuery)
    (hr : u.rootless = []) (hroot : u.scheme ≠ [] ∨ u.host ≠ [] → Rooted u.escapedPath)
    (hc : colon ∉ u.path) (hnames : namesVhost u = true) :
    ∃ vhost, (pathOf u.string).map vhostOf = some vhost ∧
      (u.keepsPath ∧ vhost = trimSlash u.path ∨
        ¬ u.keepsPath ∧
          (vhost = [slash] ∨ 0 < vhost.length ∧ vhost.length + 2 ≤ u.path.length)) := by
  rw [URL.pathOf_string_path hs hq hr (fun hh => hroot (.inr hh)) hc]
  by_cases hk : u.keepsPath
  · rw [URL.readBack_of_keepsPath (fun h => hroot (.inl h)) hk, u.unescape_escapedPath]
    exact ⟨_, rfl, .inl ⟨hk, vhostOf_of_names hnames⟩⟩
  · obtain ⟨q, hq, hshort⟩ := URL.readBack_short hk
    rw [hq]
    exact ⟨_, rfl, .inr ⟨hk, vhostOf_of_short hshort⟩⟩

/-- The URL names a virtual host: it is read back unless the path gets lost. -/
theorem RabbitMQ.vhost_of_named (cfg : RabbitMQ) {u : URL} (hp : u.Parsed)
    (hnames : namesVhost u = true) (hc : colon ∉ u.path) :
    (pathOf (cfg.withCredentials u).string).map vhostOf = some (trimSlash u.path) ↔
      cfg.keepsPath u = true ∨ trimSlash u.path = [slash] := by
  have hpath : u.path ≠ [] := (of_decide_eq_true hnames).1
  have hr : u.rootless = [] := by
    by_contra hr
    exact hpath (hp.opaq hr).2
  have hroot : u.scheme ≠ [] ∨ u.host ≠ [] → Rooted u.escapedPath := by
    intro hor
    have h := hp.rooted (or_assoc.1 (.inl hor))
    exact URL.rooted_escapedPath h.1 h.2
  rw [← cfg.keepsPath_withCredentials hpath]
  obtain ⟨user, hu, -⟩ := cfg.withCredentials_eq u
  rw [hu]
  obtain ⟨vhost, hv, hcases⟩ := vhost_of_string (u := { u with user := user })
    hp.scheme hp.query hr hroot hc hnames
  rw [hv, Option.some.injEq]
  rcases hcases with ⟨hk, rfl⟩ | ⟨hk, hlost⟩
  · exact iff_of_true rfl (.inl hk)
  · have hlen := length_trimSlash u.path
    rcases hlost with rfl | ⟨hpos, hlt⟩
    · exact ⟨fun he => .inr he.symm, fun hor => (hor.resolve_left hk).symm⟩
    · simp only at hlt
      refine iff_of_false (fun he => ?_) ?_
      · rw [he] at hlt
        omega
      · rintro (h | h)
        · exact hk h
        · rw [h, List.length_singleton] at hlen
          omega

/-- Nothing is written into a URL for the default virtual host, and it is read back
as the default. -/
theorem vhost_of_unnamed {u : URL} (hs : IsScheme u.scheme) (hq : hash ∉ u.rawQuery)
    (hr : u.rootless = []) (hhost : u.host ≠ [] → Rooted u.escapedPath)
    (hpath : u.path = [] ∨ u.path = [slash]) :
    (pathOf u.string).map vhostOf = some [slash] := by
  have hc : colon ∉ u.path := by rcases hpath with h | h <;> rw [h] <;> decide
  have hread := u.unescape_escapedPath
  rw [URL.pathOf_string_path hs hq hr hhost hc]
  have hdef : ∀ {q : Bytes}, q = [] ∨ q = [slash] → (some q).map vhostOf = some [slash] := by
    rintro q (rfl | rfl) <;> rfl
  unfold URL.readBack
  split_ifs with hp
  · rcases unescape_dropWhile hread with ⟨-, h⟩ | ⟨xs, ys, p₁, p₂, -, -, heq, h⟩
    · rw [h]
      rfl
    · rw [h]
      refine hdef (.inr ?_)
      rcases hpath with h | h
      · rw [h] at heq
        exact absurd heq.symm (by simp)
      · rw [h] at heq
        have hlen := congrArg List.length heq
        simp only [List.length_append, List.length_cons, List.length_nil] at hlen
        rw [List.eq_nil_of_length_eq_zero (l := p₂) (by omega)]
  · unfold rawPathOf
    split_ifs with hhead hauth hsch
    · -- two slashes in front cannot come from a single one
      obtain ⟨t, ht⟩ := List.isPrefixOf_iff_prefix.1 (Bool.and_eq_true_iff.1 hauth).1
      rw [← ht, List.cons_append, List.cons_append, unescape_literal (by decide),
        unescape_literal (by decide)] at hread
      obtain ⟨q₁, hq₁, hq⟩ := Option.map_eq_some_iff.1 hread
      obtain ⟨q₂, -, rfl⟩ := Option.map_eq_some_iff.1 hq₁
      rcases hpath with h | h <;> rw [h] at hq <;> simp at hq
    · rw [hread]
      exact hdef hpath
    · rfl
    · rw [hread]
      exact hdef hpath

/-- The path that stands for a configured virtual host is written as it is. -/
theorem escapedPath_configured {u : URL} {name : Bytes} (user : Option Userinfo)
    (hp : u.Parsed) (hpath : u.path = [] ∨ u.path = [slash]) (hname : name ≠ []) :
    ({ u with user := user, path := slash :: name } : URL).escapedPath =
      slash :: escape .path name := by
  unfold URL.escapedPath
  rw [if_neg, if_neg, escape_cons (by decide)]
  · rw [bytes_star]
    exact fun h => absurd (List.cons.inj h).1 (by decide)
  · -- what `RawPath` holds still encodes the path before
    rintro ⟨hne, -, hread⟩
    simp only at hne hread
    rw [hp.raw.resolve_left hne, Option.some.injEq] at hread
    rcases hpath with h | h
    · exact absurd (h.symm.trans hread) (by simp)
    · exact hname (List.cons.inj (h.symm.trans hread)).2.symm

/-- A single slash in front is not taken for an authority. -/
theorem hasAuthority_escape {scheme name : Bytes} (h : name.head? ≠ some slash) :
    hasAuthority scheme (slash :: escape .path name) = false := by
  cases he : escape .path name with
  | nil => rfl
  | cons d t =>
      have hd : (slash == d) = false := by
        rw [beq_eq_false_iff_ne]
        rintro rfl
        cases name with
        | nil => cases he
        | cons c name =>
            rcases head_escape he with hc | hc
            · exact h (congrArg some hc.symm)
            · exact absurd hc (by decide)
      simp [hasAuthority, List.isPrefixOf, hd]

/-- The configured virtual host, written into a URL that names none. -/
theorem RabbitMQ.vhost_of_configured (cfg : RabbitMQ) {u : URL} (hp : u.Parsed)
    (hpath : u.path = [] ∨ u.path = [slash]) (hr : u.rootless = [])
    (hne : bytes cfg.virtualHost ≠ []) (hslash : bytes cfg.virtualHost ≠ [slash])
    (hc : colon ∉ bytes cfg.virtualHost) :
    (pathOf (cfg.withVirtualHost (cfg.withCredentials u)).string).map vhostOf =
      some (bytes cfg.virtualHost) ↔ (bytes cfg.virtualHost).head? ≠ some slash := by
  obtain ⟨user, hu, -⟩ := cfg.withCredentials_eq u
  rw [hu, RabbitMQ.withVirtualHost]
  simp only
  rw [if_pos ⟨hpath, hne, hslash⟩]
  generalize bytes cfg.virtualHost = v at hne hslash hc ⊢
  have hname : trimSlash v ≠ [] := fun h => (eq_of_trimSlash_nil h).elim hne hslash
  have hesc := escapedPath_configured user hp hpath hname
  obtain ⟨vhost, hv, hcases⟩ := vhost_of_string
    (u := { u with user := user, path := slash :: trimSlash v }) hp.scheme hp.query hr
    (fun _ => .inr ⟨_, hesc⟩)
    (fun hm => (List.mem_cons.1 hm).elim (by decide) fun hm => hc (mem_of_mem_trimSlash hm))
    (by simp [namesVhost, hname])
  rw [hv, Option.some.injEq]
  by_cases hhead : v.head? = some slash
  · -- the slash in front is gone
    obtain ⟨t, rfl⟩ := List.head?_eq_some_iff.1 hhead
    refine iff_of_false (fun he => ?_) (not_not_intro hhead)
    subst he
    simp only [trimSlash_slash, List.length_cons] at hcases
    rcases hcases with ⟨-, h⟩ | ⟨-, h | ⟨-, h⟩⟩
    · exact List.cons_ne_self _ _ h
    · exact hslash h
    · omega
  · have htrim := trimSlash_of_head hhead
    have hk : ({ u with user := user, path := slash :: trimSlash v } : URL).keepsPath := by
      unfold URL.keepsPath
      rw [hesc]
      split_ifs
      · exact .inr ⟨_, rfl⟩
      · rw [htrim]
        exact hasAuthority_escape hhead
    refine iff_of_true ?_ hhead
    rcases hcases with ⟨-, h⟩ | ⟨h, -⟩
    · rw [h, trimSlash_slash, htrim]
    · exact absurd hk h

theorem RabbitMQ.withVirtualHost_of_names (cfg : RabbitMQ) {u : URL} (h : namesVhost u = true) :
    cfg.withVirtualHost u = u := by
  obtain ⟨h₁, h₂⟩ := of_decide_eq_true h
  exact if_neg fun hc => hc.1.elim h₁ h₂

/-- A URL without a slash behind its scheme carries no virtual host. -/
theorem RabbitMQ.vhost_of_rootless (cfg : RabbitMQ) {u : URL} (hp : u.Parsed)
    (hr : u.rootless ≠ []) :
    (pathOf (cfg.withVirtualHost (cfg.withCredentials u)).string).map vhostOf = some [slash] := by
  obtain ⟨user, hu, -⟩ := cfg.withCredentials_eq u
  obtain ⟨path, hw⟩ : ∃ path, cfg.withVirtualHost (cfg.withCredentials u) =
      { u with user := user, path := path } := by
    rw [hu, RabbitMQ.withVirtualHost]
    simp only
    split_ifs
    · exact ⟨_, rfl⟩
    · exact ⟨u.path, rfl⟩
  rw [hw, URL.pathOf_string_rootless (u := { u with user := user, path := path }) hp.scheme
    (hp.opaq hr).1 hp.query hr hp.rootless]
  rfl

/-- The URL names no virtual host. -/
theorem RabbitMQ.vhost_of_not_named (cfg : RabbitMQ) {u : URL} (hp : u.Parsed)
    (hpath : u.path = [] ∨ u.path = [slash]) (hne : bytes cfg.virtualHost ≠ [])
    (hc : colon ∉ bytes cfg.virtualHost) :
    (pathOf (cfg.withVirtualHost (cfg.withCredentials u)).string).map vhostOf =
      some (bytes cfg.virtualHost) ↔
      bytes cfg.virtualHost = [slash] ∨
        u.rootless = [] ∧ (bytes cfg.virtualHost).head? ≠ some slash := by
  by_cases hr : u.rootless = []
  · by_cases hslash : bytes cfg.virtualHost = [slash]
    · obtain ⟨user, hu, -⟩ := cfg.withCredentials_eq u
      have hhost : u.host ≠ [] → Rooted u.escapedPath := by
        intro hh
        have h := hp.rooted (.inr (.inl hh))
        exact URL.rooted_escapedPath h.1 h.2
      rw [hu, RabbitMQ.withVirtualHost, hslash]
      simp only
      rw [if_neg fun h => h.2.2 rfl, vhost_of_unnamed (u := { u with user := user }) hp.scheme
        hp.query hr hhost hpath]
      exact iff_of_true rfl (.inl trivial)
    · rw [cfg.vhost_of_configured hp hpath hr hne hslash hc]
      exact ⟨fun h => .inr ⟨hr, h⟩, fun h => (h.resolve_left hslash).2⟩
  · rw [cfg.vhost_of_rootless hp hr, Option.some.injEq]
    exact ⟨fun h => .inl h.symm, fun h => (h.resolve_right fun h => hr h.1).symm⟩

/-- **The effective virtual host.**  Both routes carry the virtual host that the URL
names, or the configured one if it names none, exactly when the configuration repeats
the one of the URL, and in a URL without one when the configured one is `/` or has no
slash in front. -/
theorem effective_vhost_iff {cfg : RabbitMQ} {raw : String} {urls : List String} {u : URL}
    {url : Bytes} {conf : AmqpConfig} (hurls : cfg.urls = raw :: urls)
    (hparse : parse (bytes raw) = some u) (hdial : cfg.dialArgs = .ok (url, conf)) :
    (dialConfigVhost url conf = some (cfg.effectiveVhost u) ∧
      (pathOf url).map vhostOf = some (cfg.effectiveVhost u)) ↔ cfg.vhostAgrees u = true := by
  have hp := parsed_of_parse hparse
  -- what `dial` checked and passed on
  unfold RabbitMQ.dialArgs at hdial
  rw [hurls] at hdial
  simp only at hdial
  split at hdial
  · cases hdial
  · rename_i hvalid
    obtain ⟨hne, hc⟩ := vhost_of_validate hvalid
    obtain ⟨rfl, rfl⟩ := Prod.mk.inj (Except.ok.inj hdial)
    rw [dialConfigVhost_of_ne hne, Option.some.injEq, RabbitMQ.buildDialURL, hparse]
    simp only
    unfold RabbitMQ.effectiveVhost RabbitMQ.vhostAgrees
    by_cases hnames : namesVhost u = true
    · rw [if_pos hnames, if_pos hnames]
      obtain ⟨user, hu, -⟩ := cfg.withCredentials_eq u
      have hnames' : namesVhost (cfg.withCredentials u) = true := by
        rw [hu]
        exact hnames
      rw [cfg.withVirtualHost_of_names hnames', Bool.and_eq_true, Bool.or_eq_true, beq_iff_eq,
        beq_iff_eq]
      refine and_congr_right fun heq => ?_
      rw [cfg.vhost_of_named hp hnames (colon_notMem_of_trimSlash (heq ▸ hc)), heq]
    · have hpath : u.path = [] ∨ u.path = [slash] := by
        by_contra hcon
        exact hnames (decide_eq_true (not_or.1 hcon))
      rw [if_neg hnames, if_neg hnames, cfg.vhost_of_not_named hp hpath hne hc]
      simp

/-- One URL and one virtual host. -/
def dialConfig (url vhost : String) : RabbitMQ :=
  { defaultRabbitMQConfig with urls := [url], virtualHost := vhost }

/-- `amqp://broker` with the path `path`. -/
def brokerURL (path : String) : URL :=
  { scheme := bytes "amqp", host := bytes "broker", path := bytes path }

theorem effective_vhost_iff_repeated :
    ∃ url conf, (dialConfig "amqp://broker/orders" "orders").dialArgs = .ok (url, conf) ∧
      dialConfigVhost url conf = some (bytes "orders") ∧
      (pathOf url).map vhostOf = some (bytes "orders") := by
  refine ⟨_, _, rfl, ?_⟩
  exact (@effective_vhost_iff (dialConfig "amqp://broker/orders" "orders") _ _
    (brokerURL "/orders") _ _ rfl (by decide +kernel) rfl).2 (by decide +kernel)

/-- The virtual host of the URL is not the one that is opened, and a slash in front of
the configured one is on one route only. -/
theorem vhost_routes_disagree :
    (∃ url conf, normalizeRabbitMQConfig (some (dialConfig "amqp://broker/orders" "/").scanned) =
        .ok (dialConfig "amqp://broker/orders" "/") ∧
      parse (bytes "amqp://broker/orders") = some (brokerURL "/orders") ∧
      (dialConfig "amqp://broker/orders" "/").dialArgs = .ok (url, conf) ∧
      (dialConfig "amqp://broker/orders" "/").effectiveVhost (brokerURL "/orders") =
        bytes "orders" ∧
      dialConfigVhost url conf = some (bytes "/")) ∧
    (∃ url conf, normalizeRabbitMQConfig (some (dialConfig "amqp://broker/" "/orders").scanned) =
        .ok (dialConfig "amqp://broker/" "/orders") ∧
      parse (bytes "amqp://broker/") = some (brokerURL "/") ∧
      (dialConfig "amqp://broker/" "/orders").dialArgs = .ok (url, conf) ∧
      (dialConfig "amqp://broker/" "/orders").effectiveVhost (brokerURL "/") = bytes "/orders" ∧
      dialConfigVhost url conf = some (bytes "/orders") ∧
      (pathOf url).map vhostOf = some (bytes "orders")) :=
  ⟨⟨_, _, rfl, by decide +kernel, rfl, by decide +kernel, by decide +kernel⟩,
    ⟨_, _, rfl, by decide +kernel, rfl, by decide +kernel, by decide +kernel, by decide +kernel⟩⟩

end LynxRabbit
