/-
GreenGarden/ClientIp.lean

The client address that requests are counted under (`core/rate_limit.py`:
`client_ip`; `core/config.py`: `trusted_proxy_networks`).  Behind a trusted
proxy `X-Forwarded-For` is walked from the right: trusted addresses are
skipped, the first other entry decides.

The header may come as several lines, which are one list.  Only the first line
is read.  The walk gives what the whole list says when the later lines hold
nothing but trusted addresses, and otherwise only by coincidence
(`client_ip_unspoofable_iff`): a client that sends a line of its own before
the one its proxy adds chooses its address.
-/
import GreenGarden.IpAddress

namespace GreenGarden

/-- What `client_ip` reads of a request: the peer, and the `X-Forwarded-For` lines in order. -/
structure ProxiedRequest where
  client : Option Text
  forwardedFor : List Text

/-- `_parse_ip`. -/
def parseIp (value : Text) : Option IpAddress := ipAddress (strip value)

/-- `_is_trusted`. -/
def isTrusted (ip : IpAddress) (networks : List IpNetwork) : Bool :=
  networks.any fun network => network.contains ip

/-- `trusted_proxy_networks`; `none` is `ValueError`. -/
def trustedProxyNetworks (trustedProxies : Text) : Option (List IpNetwork) :=
  ((trustedProxies.splitOn ',').filter fun entry => strip entry ≠ []).mapM
    fun entry => ipNetwork (strip entry)

/-- `request.client.host`, or nothing. -/
def ProxiedRequest.peer (request : ProxiedRequest) : Text := request.client.getD []

/-- `peer or "unknown"`. -/
def peerOrUnknown (peer : Text) : Text := if peer = [] then "unknown".toList else peer

/-- The walk over the entries, the rightmost one first. -/
def walkEntries (networks : List IpNetwork) (peer : Text) : List Text → Text
  | [] => peer
  | entry :: entries =>
      match parseIp entry with
      | none => peer
      | some candidate =>
          if isTrusted candidate networks then walkEntries networks peer entries
          else candidate.text

/-- `request.headers.get("x-forwarded-for", "")`. -/
def ProxiedRequest.firstLine (request : ProxiedRequest) : Text := request.forwardedFor.head?.getD []

/-- `client_ip`; `none` is the `ValueError` of a malformed configuration. -/
def clientIp (trustedProxies : Text) (request : ProxiedRequest) : Option Text :=
  (trustedProxyNetworks trustedProxies).map fun networks =>
    match parseIp request.peer with
    | none => peerOrUnknown request.peer
    | some peerIp =>
        if isTrusted peerIp networks then
          walkEntries networks request.peer (request.firstLine.splitOn ',').reverse
        else peerOrUnknown request.peer

/-! ### The header as one list -/

/-- The entries of all lines, in order. -/
def ProxiedRequest.entries (request : ProxiedRequest) : List Text :=
  request.forwardedFor.flatMap (List.splitOn ',')

/-- An entry that the walk skips: a trusted address. -/
def isTrustedHop (networks : List IpNetwork) (entry : Text) : Bool :=
  (parseIp entry).any fun ip => isTrusted ip networks

/-- The peer is a trusted proxy. -/
def ProxiedRequest.viaProxy (networks : List IpNetwork) (request : ProxiedRequest) : Bool :=
  isTrustedHop networks request.peer

/-- The rightmost entry that is untrusted or malformed. -/
def lastStop (networks : List IpNetwork) (entries : List Text) : Option Text :=
  entries.reverse.find? fun entry => !isTrustedHop networks entry

/-- The entries from the rightmost untrusted or malformed one to the end, all of them where there
is none. -/
def decisive (networks : List IpNetwork) (entries : List Text) : List Text :=
  (entries.reverse.takeWhile (isTrustedHop networks) ++
    (entries.reverse.dropWhile (isTrustedHop networks)).take 1).reverse

/-- The address an entry stands for: the peer where it is malformed or there is none. -/
def stopAddress (peer : Text) (stop : Option Text) : Text :=
  ((stop.bind parseIp).map IpAddress.text).getD peer

/-- The address of the rightmost untrusted or malformed entry, the peer for one that no trusted
proxy stands for. -/
def expectedKey (networks : List IpNetwork) (request : ProxiedRequest) : Text :=
  if request.viaProxy networks then stopAddress request.peer (lastStop networks request.entries)
  else peerOrUnknown request.peer

/-- Two requests are counted under one key, which the decisive entries determine. -/
structure Unspoofed (trustedProxies : Text) (r₁ r₂ : ProxiedRequest) : Prop where
  same : clientIp trustedProxies r₁ = clientIp trustedProxies r₂
  key : ∃ networks, trustedProxyNetworks trustedProxies = some networks ∧
    clientIp trustedProxies r₁ = some (expectedKey networks r₁)

/-- The first line decides: no proxy is trusted, or the lines after the first hold trusted
addresses only, or their last stop stands for the address that the last stop of the first line
stands for. -/
def FirstLineDecides (networks : List IpNetwork) (request : ProxiedRequest) : Prop :=
  request.viaProxy networks = false ∨
  (∀ line ∈ request.forwardedFor.tail, ∀ entry ∈ line.splitOn ',',
    isTrustedHop networks entry = true) ∨
  stopAddress request.peer (lastStop networks (request.firstLine.splitOn ',')) =
    stopAddress request.peer
      (lastStop networks (request.forwardedFor.tail.flatMap (List.splitOn ',')))

section Walk

variable {networks : List IpNetwork} {trustedProxies : Text} {request : ProxiedRequest}

/-! ### What the walk finds -/

/-- The walk ends at the first entry that is not trusted. -/
theorem walkEntries_eq (peer : Text) (entries : List Text) :
    walkEntries networks peer entries =
      stopAddress peer (entries.find? fun entry => !isTrustedHop networks entry) := by
  induction entries with
  | nil => rfl
  | cons entry entries ih =>
    rw [walkEntries, List.find?_cons]
    rcases hparse : parseIp entry with - | ip
    · simp only [isTrustedHop, hparse, Option.any_none, Bool.not_false, stopAddress,
        Option.bind_some, Option.map_none, Option.getD_none]
    · by_cases htrusted : isTrusted ip networks = true
      · simp only [isTrustedHop, hparse, Option.any_some, htrusted, Bool.not_true, if_true]
        exact ih
      · simp only [isTrustedHop, hparse, Option.any_some, htrusted, Bool.not_false, if_false,
          stopAddress, Option.bind_some, Option.map_some, Option.getD_some, Bool.false_eq_true]

theorem walkEntries_reverse (peer : Text) (entries : List Text) :
    walkEntries networks peer entries.reverse = stopAddress peer (lastStop networks entries) :=
  walkEntries_eq peer entries.reverse

/-- The last stop of a list is that of its second part, if it has one. -/
theorem lastStop_append (l r : List Text) :
    lastStop networks (l ++ r) = (lastStop networks r).or (lastStop networks l) := by
  rw [lastStop, List.reverse_append, List.find?_append, lastStop, lastStop]

theorem lastStop_eq_none {entries : List Text} :
    lastStop networks entries = none ↔ ∀ entry ∈ entries, isTrustedHop networks entry = true := by
  simp only [lastStop, List.find?_eq_none, List.mem_reverse, Bool.not_eq_true, Bool.not_eq_false']

/-- The decisive entries hold the last stop. -/
theorem lastStop_decisive (entries : List Text) :
    lastStop networks (decisive networks entries) = lastStop networks entries := by
  rw [lastStop, lastStop, decisive, List.reverse_reverse]
  generalize entries.reverse = l
  induction l with
  | nil => rfl
  | cons entry l ih =>
    by_cases htrusted : isTrustedHop networks entry = true
    · rw [List.takeWhile_cons_of_pos htrusted, List.dropWhile_cons_of_pos htrusted,
        List.cons_append, List.find?_cons, List.find?_cons, htrusted]
      exact ih
    · rw [List.takeWhile_cons_of_neg htrusted, List.dropWhile_cons_of_neg htrusted, List.nil_append,
        List.take_succ_cons, List.find?_cons, List.find?_cons,
        (Bool.not_eq_true _).mp htrusted]
      rfl

/-! ### What `client_ip` returns -/

theorem clientIp_eq (hnetworks : trustedProxyNetworks trustedProxies = some networks) :
    clientIp trustedProxies request = some
      (if request.viaProxy networks then
        stopAddress request.peer (lastStop networks (request.firstLine.splitOn ','))
      else peerOrUnknown request.peer) := by
  rw [clientIp, hnetworks, Option.map_some, ProxiedRequest.viaProxy, isTrustedHop]
  rcases parseIp request.peer with - | ip
  · rfl
  · simp only [Option.any_some, walkEntries_reverse]

/-- Reading the first line gives what the whole list says exactly when the first line decides. -/
theorem clientIp_eq_expectedKey_iff
    (hnetworks : trustedProxyNetworks trustedProxies = some networks) :
    clientIp trustedProxies request = some (expectedKey networks request) ↔
      FirstLineDecides networks request := by
  rw [clientIp_eq hnetworks, Option.some_inj, expectedKey, FirstLineDecides]
  by_cases hproxy : request.viaProxy networks = true
  · rw [if_pos hproxy, if_pos hproxy, hproxy]
    simp only [Bool.true_eq_false, false_or]
    rcases hlines : request.forwardedFor with - | ⟨first, later⟩
    · -- without a line the code reads one empty entry, which is malformed
      refine iff_of_true ?_ (Or.inl nofun)
      rw [ProxiedRequest.firstLine, ProxiedRequest.entries, hlines]
      rfl
    have hfirst : request.firstLine = first := by rw [ProxiedRequest.firstLine, hlines]; rfl
    have hentries : request.entries = first.splitOn ',' ++ later.flatMap (List.splitOn ',') := by
      rw [ProxiedRequest.entries, hlines, List.flatMap_cons]
    have hlater : (∀ line ∈ later, ∀ entry ∈ line.splitOn ',',
        isTrustedHop networks entry = true) ↔
        lastStop networks (later.flatMap (List.splitOn ',')) = none := by
      simp only [lastStop_eq_none, List.mem_flatMap, forall_exists_index, and_imp]
      exact ⟨fun h entry line hline hentry => h line hline entry hentry,
        fun h line hline entry hentry => h entry line hline hentry⟩
    rw [hfirst, hentries, lastStop_append, List.tail_cons, hlater]
    rcases lastStop networks (later.flatMap (List.splitOn ',')) with - | stop
    · simp only [Option.none_or, true_or]
    · simp only [Option.some_or, reduceCtorEq, false_or]
  · rw [if_neg hproxy, if_neg hproxy]
    exact iff_of_true rfl (Or.inl ((Bool.not_eq_true _).mp hproxy))

end Walk

/-- Two requests from one peer with the same decisive entries are counted under the key that these
determine exactly when the first header line of each decides. -/
theorem client_ip_unspoofable_iff (trustedProxies : Text) (r₁ r₂ : ProxiedRequest)
    (hpeer : r₁.client = r₂.client)
    (hdecisive : ∀ networks, trustedProxyNetworks trustedProxies = some networks →
      decisive networks r₁.entries = decisive networks r₂.entries) :
    Unspoofed trustedProxies r₁ r₂ ↔
      ∃ networks, trustedProxyNetworks trustedProxies = some networks ∧
        FirstLineDecides networks r₁ ∧ FirstLineDecides networks r₂ := by
  have hkey : ∀ networks, trustedProxyNetworks trustedProxies = some networks →
      expectedKey networks r₁ = expectedKey networks r₂ := by
    intro networks hnetworks
    have hstop : lastStop networks r₁.entries = lastStop networks r₂.entries := by
      rw [← lastStop_decisive, hdecisive networks hnetworks, lastStop_decisive]
    have hpeer' : r₁.peer = r₂.peer := congrArg (Option.getD · []) hpeer
    rw [expectedKey, expectedKey, ProxiedRequest.viaProxy, ProxiedRequest.viaProxy, hstop, hpeer']
  constructor
  · rintro ⟨hsame, networks, hnetworks, hvalue⟩
    refine ⟨networks, hnetworks, (clientIp_eq_expectedKey_iff hnetworks).mp hvalue, ?_⟩
    apply (clientIp_eq_expectedKey_iff hnetworks).mp
    rw [← hsame, hvalue, hkey networks hnetworks]
  · rintro ⟨networks, hnetworks, hfirst, hsecond⟩
    have hvalue := (clientIp_eq_expectedKey_iff hnetworks).mpr hfirst
    refine ⟨?_, networks, hnetworks, hvalue⟩
    rw [hvalue, (clientIp_eq_expectedKey_iff hnetworks).mpr hsecond, hkey networks hnetworks]

/-- A request through the proxy on this host. -/
def proxied (lines : List String) : ProxiedRequest :=
  ⟨some "127.0.0.1".toList, lines.map String.toList⟩

/-- This host is the only trusted proxy. -/
theorem trustedProxyNetworks_local :
    trustedProxyNetworks "127.0.0.1,::1".toList = some [.v4 0x7f000001 32, .v6 1 128] := by
  decide +kernel

/-- Of one line an entry that the client put before the one of the proxy does not matter. -/
theorem client_ip_unspoofable_one_line :
    Unspoofed "127.0.0.1,::1".toList (proxied ["1.2.3.4,198.51.100.1,::1"])
      (proxied ["198.51.100.1,::1"]) := by
  have honly : ∀ line networks, FirstLineDecides networks (proxied [line]) := by
    intro line networks
    exact Or.inr (Or.inl fun _ hline => by cases hline)
  have hdecisive : ∀ networks, trustedProxyNetworks "127.0.0.1,::1".toList = some networks →
      decisive networks (proxied ["1.2.3.4,198.51.100.1,::1"]).entries =
        decisive networks (proxied ["198.51.100.1,::1"]).entries := by
    intro networks hnetworks
    obtain rfl := Option.some.inj (trustedProxyNetworks_local.symm.trans hnetworks)
    decide +kernel
  exact (client_ip_unspoofable_iff _ (proxied ["1.2.3.4,198.51.100.1,::1"])
    (proxied ["198.51.100.1,::1"]) rfl hdecisive).mpr
    ⟨_, trustedProxyNetworks_local, honly _ _, honly _ _⟩

/-- A header line that the client put before the one of the proxy decides. -/
theorem header_line_spoofs :
    (proxied ["1.2.3.4", "198.51.100.1"]).client = (proxied ["198.51.100.1"]).client ∧
      (∀ networks, trustedProxyNetworks "127.0.0.1,::1".toList = some networks →
        decisive networks (proxied ["1.2.3.4", "198.51.100.1"]).entries =
          decisive networks (proxied ["198.51.100.1"]).entries) ∧
      ¬ Unspoofed "127.0.0.1,::1".toList (proxied ["1.2.3.4", "198.51.100.1"])
        (proxied ["198.51.100.1"]) := by
  refine ⟨rfl, fun networks hnetworks => ?_, fun hunspoofed => ?_⟩
  · obtain rfl := Option.some.inj (trustedProxyNetworks_local.symm.trans hnetworks)
    decide +kernel
  · exact absurd hunspoofed.same (by decide +kernel)

end GreenGarden
