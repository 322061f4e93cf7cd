/-
# Who is dialled, as whom, and under TLS or not

`dial` hands `amqp.DialConfig` a URL that `buildDialURL` has printed, and
`DialConfig` reads the URL again: the scheme decides on TLS, the host is dialled, and
the user is the login.  `dial_address` says that nothing is lost or misread on the
way, whatever bytes the configured user name and password consist of: a `@`, a
colon, a slash or a `%` in a password is escaped, and read back as it was.  It is about
URLs with a scheme and a host.  Into `amqp:orders`, which has no slash behind its
scheme, `String` writes neither a login nor a path.

`buildAMQPURL` of `utils.go` escapes nothing.  `buildAMQPURL_address` is its round
trip, for components that need no escape.
-/

import LynxRabbit.Client.DialUrl
import LynxRabbit.Net.RoundTrip

namespace LynxRabbit

open Net

/-! ### Login and TLS -/

/-- A component, or its default. -/
def orDefault (s default : Bytes) : Bytes := if s = [] then default else s

/-- `buildAMQPURL`. -/
def buildAMQPURL (username password host port vhost : Bytes) : Bytes :=
  bytes "amqp://" ++ orDefault username (bytes "guest") ++ [colon] ++
    orDefault password (bytes "guest") ++ [atSign] ++ orDefault host (bytes "localhost") ++
    [colon] ++ orDefault port (bytes "5672") ++ [slash] ++ orDefault vhost [slash]

/-- A byte that no part of a URL escapes. -/
def isUnreserved (c : UInt8) : Bool := isLetter c || isDigit c || oneOf "-_.~" c

theorem shouldEscape_unreserved : ∀ c : UInt8, isUnreserved c = true →
    ∀ mode, shouldEscape mode c = false := by
  intro c hc mode
  have hall : ∀ c : UInt8, isUnreserved c = true → shouldEscape .path c = false ∧
      shouldEscape .userPassword c = false ∧ shouldEscape .host c = false ∧
      shouldEscape .fragment c = false := forall_byte (by decide +kernel)
  obtain ⟨h₁, h₂, h₃, h₄⟩ := hall c hc
  cases mode
  · exact h₁
  · exact h₂
  · exact h₃
  · exact h₄

theorem isUnreserved_digit {c : UInt8} (h : isDigit c = true) : isUnreserved c = true := by
  simp [isUnreserved, h]

/-- The bytes of a text one after the other; there are instances that would try all bytes. -/
theorem forall_mem_of_all {p : UInt8 → Prop} [DecidablePred p] {s : Bytes}
    (h : s.all (fun c => decide (p c)) = true) : ∀ c ∈ s, p c := by
  simpa using h

theorem forall_orDefault {p : UInt8 → Prop} {s d : Bytes} (hs : ∀ c ∈ s, p c)
    (hd : ∀ c ∈ d, p c) : ∀ c ∈ orDefault s d, p c := by
  unfold orDefault
  split_ifs
  · exact hd
  · exact hs

theorem orDefault_ne_nil {s d : Bytes} (h : d ≠ []) : orDefault s d ≠ [] := by
  unfold orDefault
  split_ifs with hs
  · exact h
  · exact hs

/-- The URL with these components. -/
def amqpURL (username password host port vhost : Bytes) : URL where
  scheme := bytes "amqp"
  user := some ⟨username, some password⟩
  host := host ++ colon :: port
  path := slash :: vhost

/-- A name and a port are a host that is read as it is written. -/
theorem parseHost_name {host port : Bytes} (hh : ∀ c ∈ host, isUnreserved c = true)
    (hport : ∀ c ∈ port, isDigit c = true) :
    parseHost (escape .host (host ++ colon :: port)) = some (host ++ colon :: port) := by
  have hplain : ∀ c ∈ host ++ colon :: port, shouldEscape .host c = false ∧ c ≠ openBracket := by
    have hbyte : ∀ c : UInt8, isUnreserved c = true → c ≠ openBracket :=
      forall_byte (by decide +kernel)
    intro c hc
    rcases List.mem_append.1 hc with hc | hc
    · exact ⟨shouldEscape_unreserved c (hh c hc) _, hbyte c (hh c hc)⟩
    · rcases List.mem_cons.1 hc with rfl | hc
      · decide
      · have hu := isUnreserved_digit (hport c hc)
        exact ⟨shouldEscape_unreserved c hu _, hbyte c hu⟩
  have hcolon : colon ∉ host := fun hm => absurd (hh _ hm) (by decide)
  have hread := unescapeHost_escape (h := host ++ colon :: port) fun c hc he => by
    rw [(hplain c hc).1] at he
    cases he
  rw [escape_eq_self fun c hc => (hplain c hc).1] at hread ⊢
  unfold parseHost
  rw [if_neg (by simpa using fun hm => (hplain _ hm).2 rfl), dropWhile_ne_append hcolon,
    List.dropWhile_cons_of_neg (by simp), if_pos, hread]
  simpa [validOptionalPort] using hport

theorem amqpURL_reprintable (username password : Bytes) {host port : Bytes} (vhost : Bytes)
    (hh : ∀ c ∈ host, isUnreserved c = true) (hport : ∀ c ∈ port, isDigit c = true) :
    (amqpURL username password host port vhost).Reprintable where
  isScheme := by
    change IsScheme (bytes "amqp")
    exact .inr ⟨⟨_, _, rfl, by decide⟩, forall_mem_of_all (by decide)⟩
  scheme := by
    change bytes "amqp" ≠ []
    decide
  lower := by
    change (bytes "amqp").map toLower = bytes "amqp"
    decide
  rootless := rfl
  host := by simp [amqpURL]
  readsHost := parseHost_name hh hport
  query := fun _ hc => absurd hc List.not_mem_nil
  rooted := ⟨.inr ⟨_, rfl⟩, .inl rfl⟩

/-- Components that need no escape are printed as they are. -/
theorem string_amqpURL {username password host port vhost : Bytes}
    (hu : ∀ c ∈ username, isUnreserved c = true) (hp : ∀ c ∈ password, isUnreserved c = true)
    (hh : ∀ c ∈ host, isUnreserved c = true) (hport : ∀ c ∈ port, isDigit c = true)
    (hv : ∀ c ∈ vhost, c = slash ∨ isUnreserved c = true) :
    (amqpURL username password host port vhost).string =
      bytes "amqp://" ++ username ++ [colon] ++ password ++ [atSign] ++ host ++ [colon] ++ port ++
        [slash] ++ vhost := by
  have hplain : ∀ {mode : Encoding} {s : Bytes}, (∀ c ∈ s, isUnreserved c = true) →
      escape mode s = s :=
    fun hs => escape_eq_self fun c hc => shouldEscape_unreserved c (hs c hc) _
  have hhost : escape .host (host ++ colon :: port) = host ++ colon :: port := by
    refine escape_eq_self fun c hc => ?_
    rcases List.mem_append.1 hc with hc | hc
    · exact shouldEscape_unreserved c (hh c hc) _
    · rcases List.mem_cons.1 hc with rfl | hc
      · decide
      · exact shouldEscape_unreserved c (isUnreserved_digit (hport c hc)) _
  have hpath : escape .path (slash :: vhost) = slash :: vhost := by
    refine escape_eq_self fun c hc => ?_
    rcases List.mem_cons.1 hc with rfl | hc
    · decide
    · rcases hv c hc with rfl | hc
      · decide
      · exact shouldEscape_unreserved c hc _
  have hscheme : bytes "amqp://" = bytes "amqp" ++ [colon, slash, slash] := by decide
  have hstar : slash :: vhost ≠ bytes "*" := by
    rw [bytes_star]
    intro he
    exact absurd (List.cons.inj he).1 (by decide)
  rw [(amqpURL_reprintable username password vhost hh hport).string_eq]
  simp [amqpURL, URL.authority, Userinfo.string, URL.escapedPath, URL.queryPart, hplain hu,
    hplain hp, hhost, hpath, hscheme, hstar]

/-- **`buildAMQPURL` is read back component by component**, the defaults in place of
the empty ones, when the components need no escape. -/
theorem buildAMQPURL_address {username password host port vhost : Bytes}
    (hu : ∀ c ∈ username, isUnreserved c = true) (hp : ∀ c ∈ password, isUnreserved c = true)
    (hh : ∀ c ∈ host, isUnreserved c = true) (hport : ∀ c ∈ port, isDigit c = true)
    (hv : ∀ c ∈ vhost, c = slash ∨ isUnreserved c = true) :
    ∃ u : URL, parse (buildAMQPURL username password host port vhost) = some u ∧
      u.scheme = bytes "amqp" ∧
      u.user =
        some ⟨orDefault username (bytes "guest"), some (orDefault password (bytes "guest"))⟩ ∧
      u.host = orDefault host (bytes "localhost") ++ colon :: orDefault port (bytes "5672") ∧
      vhostOf u.path = orDefault vhost [slash] := by
  have hhost := forall_orDefault hh (d := bytes "localhost") (forall_mem_of_all (by decide))
  have hport := forall_orDefault hport (d := bytes "5672") (forall_mem_of_all (by decide))
  have hprinted := string_amqpURL
    (forall_orDefault hu (d := bytes "guest") (forall_mem_of_all (by decide)))
    (forall_orDefault hp (d := bytes "guest") (forall_mem_of_all (by decide))) hhost hport
    (forall_orDefault hv (d := [slash]) (forall_mem_of_all (by decide)))
  obtain ⟨u, hparse, hs, huser, hhost, hpath, -⟩ :=
    (amqpURL_reprintable _ _ _ hhost hport).parse_string
  rw [hprinted] at hparse
  refine ⟨u, hparse, hs, huser, hhost, ?_⟩
  rw [hpath]
  exact vhostOf_cons (orDefault_ne_nil (List.cons_ne_nil _ _))

/-- The virtual host keeps its slash; the host and the port are the default ones. -/
theorem buildAMQPURL_address_defaults :
    ∃ u : URL, parse (buildAMQPURL (bytes "user") (bytes "pass") [] [] (bytes "/vhost")) = some u ∧
      u.user = some ⟨bytes "user", some (bytes "pass")⟩ ∧ u.host = bytes "localhost:5672" ∧
      vhostOf u.path = bytes "/vhost" := by
  obtain ⟨u, hu, -, huser, hhost, hv⟩ := @buildAMQPURL_address (bytes "user") (bytes "pass") [] []
    (bytes "/vhost") (forall_mem_of_all (by decide)) (forall_mem_of_all (by decide))
    (forall_mem_of_all (by decide)) (forall_mem_of_all (by decide)) (forall_mem_of_all (by decide))
  exact ⟨u, hu, huser, hhost, hv⟩

end LynxRabbit
