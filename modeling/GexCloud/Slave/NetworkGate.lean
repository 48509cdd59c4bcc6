import GexCloud.Base.Ruby
import GexCloud.Registry.Ports
import GexCloud.Support.Loops
import GexCloud.Support.Runs

/-! # The network gate of the slave playbook

Before a node is provisioned, `wait_until_network_ok` waits for the tunnel to come up and then probes the
endpoints the node needs. `is_port_open?` says by its *value* that an endpoint refuses all its attempts, and
by an error that an attempt timed out; the gate drops the value.

* `isPortOpen` — the attempts on one endpoint.
* `Network`, `waitUntilNetworkOk` — the world of a run of the gate, and the gate.
* `Accepts`, `Shut`, `Breaks` — the three ways the attempts on an endpoint can come out.
* `Gated` — the gate lets through only a connected node; `Unhindered` — nothing cuts the gate short.
* **`gated_iff`** — the gate is right exactly when an unhindered node finds no endpoint shut. -/

namespace GexCloud.Slave

open Texts Loops

/-! ## One endpoint -/

/-- What comes of `TCPSocket.new`. -/
inductive Connection
  | accepted
  /-- `Errno::ECONNREFUSED`. -/
  | refused
  /-- `Errno::EHOSTUNREACH`. -/
  | unreachable
  /-- `Timeout::timeout(10)` strikes. -/
  | timedOut
  /-- Any other error. -/
  | failed (error : Text)
  deriving DecidableEq

/-- The ways the gate is cut short. -/
inductive NetworkError
  | ruby (e : RubyError)
  /-- `Timeout::Error`. -/
  | timeout
  /-- An error of `TCPSocket.new` that nothing rescues. -/
  | socket (error : Text)

/-- The outcomes `is_port_open?` rescues, to try again. -/
def Connection.retries : Connection → Bool
  | .refused | .unreachable => true
  | .accepted | .timedOut | .failed _ => false

/-- The loop of `is_port_open?` from the given attempt on, with so many attempts left. -/
def isPortOpenFrom (connect : Nat → Connection) (attempt : Nat) : Nat → Except NetworkError Bool
  | 0 => .ok false
  | left + 1 =>
    match connect attempt with
    | .accepted => .ok true
    | .refused | .unreachable => isPortOpenFrom connect (attempt + 1) left
    | .timedOut => .error .timeout
    | .failed error => .error (.socket error)

/-- The attempts of `is_port_open?`: `milliseconds / 100`, and `milliseconds` is 5000. -/
def attempts : Nat := 5000 / 100

/-- `is_port_open?`, given what comes of each attempt. -/
def isPortOpen (connect : Nat → Connection) : Except NetworkError Bool := isPortOpenFrom connect 0 attempts

/-! ## The gate -/

/-- The endpoints of the gate, in the order they are probed. -/
inductive Gate
  | socksProxy
  | dns
  | consul
  | master
  | sensu
  deriving DecidableEq

/-- What `TCPSocket.new` is given; a host of `nil` stays `nil`. -/
structure Endpoint where
  host : Option Text
  port : Int

/-- The world of a run of the gate. -/
structure Network where
  /-- What the `n`-th `ip route` prints, `none` when it fails. -/
  route : Nat → Option Text
  /-- `ENV['_socks_proxy_ip']`. -/
  socksProxyIp : Option Text
  /-- `ENV['_sensu_rabbitmq_host']`. -/
  sensuRabbitmqHost : Option Text
  /-- The lines of `/etc/openvpn/config/password`. -/
  password : Option (List Text)
  /-- What a command writes to its standard error. -/
  stderr : Text → Text
  /-- What comes of the attempts on an endpoint. -/
  connect : Gate → Endpoint → Nat → Connection

/-- An error of the shared scripts is one of the gate. -/
def liftRuby {α : Type} : Except RubyError α → Except NetworkError α
  | .ok a => .ok a
  | .error e => .error (.ruby e)

/-- A method called on what may be `nil`. -/
def orNil {α : Type} : Option α → Except NetworkError α
  | some a => .ok a
  | none => .error (.ruby .noMethodError)

/-- `string.include? part`. -/
def includes (string part : Text) : Bool := decide (part <:+: string)

/-- `get_framework_master_ip cluster_id, 'hadoop'`; the prefix of the network is `NETWORK_PREFIXES['hadoop']`. -/
def getFrameworkMasterIp (cluster_id : Int) : Text :=
  "51.77.".toList ++ signed (cluster_id / 256) ++ '.' :: signed (cluster_id % 256)

/-- The command of `test_socks_proxy`. -/
def proxyCommand (username password ip : Text) : Text :=
  "timeout 1 curl --socks5 http://".toList ++ username ++ ':' :: password ++ '@' :: ip ++ " 127.0.0.1".toList

/-- `test_socks_proxy`. -/
def testSocksProxy (net : Network) (ip : Text) : Except NetworkError Unit :=
  match net.password with
  | none => .error (.ruby (.noSuchFile "/etc/openvpn/config/password".toList))
  | some lines => do
    let username ← orNil lines[0]?
    let password ← orNil lines[1]?
    liftRuby <| assert (!includes (net.stderr (proxyCommand (strip username) (strip password) ip)) "rejected".toList)
      ("User ".toList ++ strip username ++ " could not authenticate to the proxy server ".toList ++ ip)

/-- `if proxy_ip.include? '.'`, with its two checks. -/
def probeProxy (net : Network) (proxy_ip : Text) : Except NetworkError Unit :=
  if includes proxy_ip ['.'] then do
    let _ ← isPortOpen (net.connect .socksProxy ⟨some proxy_ip, 80⟩)
    testSocksProxy net proxy_ip
  else .ok ()

/-- The second part of `wait_until_network_ok`: the endpoints. The values of `is_port_open?` are dropped. -/
def probeEndpoints (net : Network) (cluster_id : Int) : Except NetworkError Unit := do
  let proxy_ip ← orNil net.socksProxyIp
  probeProxy net proxy_ip
  let _ ← isPortOpen (net.connect .dns ⟨some "51.0.1.8".toList, 22⟩)
  let ports ← liftRuby (Registry.consulPorts cluster_id)
  let _ ← isPortOpen (net.connect .consul ⟨some "51.0.1.8".toList, ports.http⟩)
  let _ ← isPortOpen (net.connect .master ⟨some (getFrameworkMasterIp cluster_id), 22⟩)
  let _ ← isPortOpen (net.connect .sensu ⟨net.sensuRabbitmqHost, 22⟩)
  return ()

/-- One round of `until (texec 'ip route').include? 'dev tun0'`, at the given count of failed polls. The loop is
left with that count and what it comes to. -/
def pollRoute (route : Nat → Option Text) (count : Nat) : Next Nat (Nat × Except NetworkError Unit) :=
  match route count with
  | none => .leave (count, .error (.ruby (.commandFailed "ip route".toList)))
  | some routes =>
    if includes routes "dev tun0".toList then .leave (count, .ok ())
    else if count + 1 < 10 then .goOn (count + 1)
    else .leave (count + 1, .error (.ruby (.exception "Could not connect to GEX VPN server".toList)))

/-- `wait_until_network_ok`: the failed polls of the route and what the function comes to, when the poll is
left within the given rounds. -/
def waitUntilNetworkOk (net : Network) (cluster_id : Int) (rounds : Nat) :
    Option (Nat × Except NetworkError Unit) :=
  (run (pollRoute net.route) rounds 0).map fun (count, polled) =>
    (count, polled.bind fun _ => probeEndpoints net cluster_id)

/-! ## What the gate is for -/

/-- The endpoint of a gate. -/
def endpoint (net : Network) (cluster_id : Int) : Gate → Endpoint
  | .socksProxy => ⟨net.socksProxyIp, 80⟩
  | .dns => ⟨some "51.0.1.8".toList, 22⟩
  | .consul => ⟨some "51.0.1.8".toList, 40000 + (cluster_id * 5 - 1)⟩
  | .master => ⟨some (getFrameworkMasterIp cluster_id), 22⟩
  | .sensu => ⟨net.sensuRabbitmqHost, 22⟩

/-- The socks proxy is probed when its address contains a dot. -/
def Network.hasProxy (net : Network) : Bool := net.socksProxyIp.any fun ip => includes ip ['.']

/-- The gates that are probed. -/
def gates (net : Network) : List Gate :=
  (if net.hasProxy then [.socksProxy] else []) ++ [.dns, .consul, .master, .sensu]

/-- What comes of the attempts on a gate. -/
def attemptsOn (net : Network) (cluster_id : Int) (g : Gate) : Nat → Connection :=
  net.connect g (endpoint net cluster_id g)

/-- The endpoint accepts a connection within its attempts. -/
def Accepts (connect : Nat → Connection) : Prop :=
  ∃ i < attempts, connect i = .accepted ∧ ∀ j < i, (connect j).retries = true

/-- All the attempts on the endpoint are refused, or do not reach it. -/
def Shut (connect : Nat → Connection) : Prop := ∀ i < attempts, (connect i).retries = true

/-- An attempt on the endpoint times out or fails otherwise, after others that were refused. -/
def Breaks (connect : Nat → Connection) : Prop :=
  ∃ i < attempts, (connect i).retries = false ∧ connect i ≠ .accepted ∧ ∀ j < i, (connect j).retries = true

/-- The route of the tunnel appears at this poll. -/
def TunnelAt (net : Network) (i : Nat) : Prop :=
  ∃ routes, net.route i = some routes ∧ includes routes "dev tun0".toList = true

/-- The gate makes at most ten failed polls of the route, returns only when the route of the tunnel has
appeared and every endpoint it probes has accepted a connection, and raises otherwise. -/
def Gated (net : Network) (cluster_id : Int) : Prop :=
  ∃ rounds polls result, waitUntilNetworkOk net cluster_id rounds = some (polls, result) ∧ polls ≤ 10 ∧
    (result = .ok () ∧ TunnelAt net polls ∧ (∀ g ∈ gates net, Accepts (attemptsOn net cluster_id g)) ∨
      ∃ e, result = .error e)

/-- The proxy does not turn the user down. -/
def ProxyOk (net : Network) (ip : Text) : Prop :=
  ∃ username password rest, net.password = some (username :: password :: rest) ∧
    includes (net.stderr (proxyCommand (strip username) (strip password) ip)) "rejected".toList = false

/-- The tunnel comes up before the polls are used up, and `ip route` works until it does. -/
def TunnelInTime (net : Network) : Prop := ∃ i < 10, TunnelAt net i ∧ ∀ j < i, (net.route j).isSome

/-- Nothing cuts the gate short. -/
structure Unhindered (net : Network) (cluster_id : Int) : Prop where
  tunnel : TunnelInTime net
  /-- The address of the proxy is set, and a proxy that is used lets the user in. -/
  proxy : ∃ ip, net.socksProxyIp = some ip ∧ (includes ip ['.'] = true → ProxyOk net ip)
  /-- The cluster has a proper id. -/
  clusterId : 0 < cluster_id
  /-- No attempt on an endpoint times out or fails in a way that is not rescued. -/
  attempts : ∀ g ∈ gates net, ¬ Breaks (attemptsOn net cluster_id g)

variable {connect : Nat → Connection} {net : Network} {cluster_id : Int}

/-! ## The attempts on one endpoint -/

/-- The attempts from a given one on, when all before it were refused. -/
theorem isPortOpenFrom_cases {start left : Nat} (hstart : ∀ j < start, (connect j).retries = true) :
    (isPortOpenFrom connect start left = .ok true ∧
      ∃ i < start + left, connect i = .accepted ∧ ∀ j < i, (connect j).retries = true) ∨
    (isPortOpenFrom connect start left = .ok false ∧ ∀ i < start + left, (connect i).retries = true) ∨
    ((∃ e, isPortOpenFrom connect start left = .error e) ∧ ∃ i < start + left,
      (connect i).retries = false ∧ connect i ≠ .accepted ∧ ∀ j < i, (connect j).retries = true) := by
  induction left generalizing start with
  | zero => exact .inr (.inl ⟨rfl, hstart⟩)
  | succ left ih =>
    -- a refused attempt is followed by the next one
    have hgoOn : (connect start).retries = true → ∀ j < start + 1, (connect j).retries = true := by
      intro hretry j hj
      rcases Nat.lt_succ_iff_lt_or_eq.mp hj with hlt | rfl
      · exact hstart j hlt
      · exact hretry
    have hlen : start + (left + 1) = start + 1 + left := by omega
    cases hconnect : connect start with
    | accepted =>
      refine .inl ⟨?_, start, by omega, hconnect, hstart⟩
      rw [isPortOpenFrom, hconnect]
    | refused =>
      rw [isPortOpenFrom, hconnect, hlen]
      exact ih (hgoOn (by rw [hconnect]; rfl))
    | unreachable =>
      rw [isPortOpenFrom, hconnect, hlen]
      exact ih (hgoOn (by rw [hconnect]; rfl))
    | timedOut =>
      refine .inr (.inr ⟨⟨.timeout, ?_⟩, start, by omega, ?_, ?_, hstart⟩)
      · rw [isPortOpenFrom, hconnect]
      · rw [hconnect]
        rfl
      · rw [hconnect]
        exact Connection.noConfusion
    | failed error =>
      refine .inr (.inr ⟨⟨.socket error, ?_⟩, start, by omega, ?_, ?_, hstart⟩)
      · rw [isPortOpenFrom, hconnect]
      · rw [hconnect]
        rfl
      · rw [hconnect]
        exact Connection.noConfusion

/-- **What `is_port_open?` says**: by its value that the endpoint accepts or is shut, by an error that an
attempt broke. -/
theorem isPortOpen_cases (connect : Nat → Connection) :
    (isPortOpen connect = .ok true ∧ Accepts connect) ∨ (isPortOpen connect = .ok false ∧ Shut connect) ∨
      ((∃ e, isPortOpen connect = .error e) ∧ Breaks connect) := by
  have h := @isPortOpenFrom_cases connect 0 attempts fun j hj => absurd hj (Nat.not_lt_zero j)
  rw [Nat.zero_add] at h
  exact h

/-- An endpoint that accepts is not shut. -/
theorem Accepts.not_shut (h : Accepts connect) : ¬ Shut connect := by
  obtain ⟨i, hi, haccepted, -⟩ := h
  intro hshut
  have hretry := hshut i hi
  rw [haccepted] at hretry
  cases hretry

/-- An endpoint that accepts does not break. -/
theorem Accepts.not_breaks (h : Accepts connect) : ¬ Breaks connect := by
  obtain ⟨i, -, haccepted, hbefore⟩ := h
  rintro ⟨k, -, hfails, hother, hbefore'⟩
  rcases Nat.lt_trichotomy i k with hlt | rfl | hlt
  · have hretry := hbefore' i hlt
    rw [haccepted] at hretry
    cases hretry
  · exact hother haccepted
  · rw [hbefore k hlt] at hfails
    cases hfails

/-- An endpoint that is shut does not break. -/
theorem Shut.not_breaks (h : Shut connect) : ¬ Breaks connect := by
  rintro ⟨k, hk, hfails, -⟩
  rw [h k hk] at hfails
  cases hfails

/-- An endpoint that does not break accepts or is shut. -/
theorem accepts_or_shut (h : ¬ Breaks connect) : Accepts connect ∨ Shut connect := by
  rcases isPortOpen_cases connect with ⟨-, ha⟩ | ⟨-, hs⟩ | ⟨-, hb⟩
  · exact .inl ha
  · exact .inr hs
  · exact absurd hb h

/-- A probe whose value is dropped goes on unless it breaks. -/
theorem isPortOpen_bind_eq_ok_iff {m : Except NetworkError Unit} :
    (isPortOpen connect >>= fun _ => m) = .ok () ↔ ¬ Breaks connect ∧ m = .ok () := by
  rw [Runs.bind_eq_ok_iff]
  rcases isPortOpen_cases connect with ⟨hok, ha⟩ | ⟨hok, hs⟩ | ⟨⟨e, herror⟩, hb⟩
  · exact ⟨fun ⟨_, _, hm⟩ => ⟨ha.not_breaks, hm⟩, fun ⟨_, hm⟩ => ⟨true, hok, hm⟩⟩
  · exact ⟨fun ⟨_, _, hm⟩ => ⟨hs.not_breaks, hm⟩, fun ⟨_, hm⟩ => ⟨false, hok, hm⟩⟩
  · constructor
    · rintro ⟨_, hok, -⟩
      rw [herror] at hok
      cases hok
    · exact fun ⟨h, _⟩ => absurd hb h

/-! ## The parts of the gate -/

/-- A value goes on, `nil` does not. -/
@[simp] theorem orNil_eq_ok_iff {α : Type} {o : Option α} {a : α} : orNil o = .ok a ↔ o = some a := by
  cases o <;> simp [orNil]

/-- What Ruby raises ends the run. -/
@[simp] theorem liftRuby_eq_ok_iff {α : Type} {x : Except RubyError α} {a : α} :
    liftRuby x = .ok a ↔ x = .ok a := by
  cases x <;> simp [liftRuby]

/-- The proxy is tested with the first two lines of the password file. -/
theorem testSocksProxy_eq_ok_iff {ip : Text} : testSocksProxy net ip = .ok () ↔ ProxyOk net ip := by
  rw [testSocksProxy, ProxyOk]
  rcases net.password with _ | _ | ⟨username, _ | ⟨password, rest⟩⟩
  · simp
  · simp [orNil, bind, Except.bind]
  · simp [orNil, bind, Except.bind]
  · simp [orNil, bind, Except.bind]

/-- The two checks of the proxy. -/
theorem probeProxy_eq_ok_iff {ip : Text} :
    probeProxy net ip = .ok () ↔
      (includes ip ['.'] = true → ¬ Breaks (net.connect .socksProxy ⟨some ip, 80⟩) ∧ ProxyOk net ip) := by
  rw [probeProxy]
  split
  · rename_i hdot
    rw [isPortOpen_bind_eq_ok_iff, testSocksProxy_eq_ok_iff]
    exact ⟨fun h _ => h, fun h => h hdot⟩
  · rename_i hdot
    exact ⟨fun _ h => absurd h hdot, fun _ => rfl⟩

/-- The port of the cluster's Consul, for a proper id. -/
theorem consulPorts_http {ports : Registry.ConsulPorts} :
    Registry.consulPorts cluster_id = .ok ports → 0 < cluster_id ∧ ports.http = 40000 + (cluster_id * 5 - 1) := by
  intro h
  have hpos : 0 < cluster_id := by
    obtain ⟨k, hk, -⟩ := Runs.bind_eq_ok_iff.mp h
    exact (Registry.assertClusterId_eq_ok_iff.mp hk).1
  rw [Registry.consulPorts_of_pos hpos] at h
  cases h
  exact ⟨hpos, rfl⟩

/-- The gates that are always probed, and the one of the proxy. -/
theorem forall_gates_iff {P : Gate → Prop} :
    (∀ g ∈ gates net, P g) ↔
      (net.hasProxy = true → P .socksProxy) ∧ P .dns ∧ P .consul ∧ P .master ∧ P .sensu := by
  rw [gates, List.forall_mem_append]
  cases net.hasProxy <;> simp

/-- The endpoints are gone through when the proxy lets the user in, the id is proper and no attempt breaks. -/
theorem probeEndpoints_eq_ok_iff :
    probeEndpoints net cluster_id = .ok () ↔
      (∃ ip, net.socksProxyIp = some ip ∧ (includes ip ['.'] = true → ProxyOk net ip)) ∧ 0 < cluster_id ∧
        ∀ g ∈ gates net, ¬ Breaks (attemptsOn net cluster_id g) := by
  rw [probeEndpoints, Runs.bind_eq_ok_iff, forall_gates_iff]
  constructor
  · rintro ⟨ip, hip, h⟩
    rw [orNil_eq_ok_iff] at hip
    obtain ⟨_, hproxy, h⟩ := Runs.bind_eq_ok_iff.mp h
    have hproxy := probeProxy_eq_ok_iff.mp hproxy
    obtain ⟨hdns, h⟩ := isPortOpen_bind_eq_ok_iff.mp h
    obtain ⟨ports, hports, h⟩ := Runs.bind_eq_ok_iff.mp h
    obtain ⟨hpos, hhttp⟩ := consulPorts_http (liftRuby_eq_ok_iff.mp hports)
    rw [hhttp] at h
    obtain ⟨hconsul, h⟩ := isPortOpen_bind_eq_ok_iff.mp h
    obtain ⟨hmaster, h⟩ := isPortOpen_bind_eq_ok_iff.mp h
    obtain ⟨hsensu, -⟩ := isPortOpen_bind_eq_ok_iff.mp h
    refine ⟨⟨ip, hip, fun hdot => (hproxy hdot).2⟩, hpos, ?_, hdns, hconsul, hmaster, hsensu⟩
    intro hhas
    rw [Network.hasProxy, hip] at hhas
    rw [attemptsOn, endpoint, hip]
    exact (hproxy hhas).1
  · rintro ⟨⟨ip, hip, hproxy⟩, hpos, hsocks, hdns, hconsul, hmaster, hsensu⟩
    refine ⟨ip, orNil_eq_ok_iff.mpr hip, Runs.bind_eq_ok_iff.mpr ⟨(), ?_, ?_⟩⟩
    · refine probeProxy_eq_ok_iff.mpr fun hdot => ⟨?_, hproxy hdot⟩
      rw [Network.hasProxy, hip, attemptsOn, endpoint, hip] at hsocks
      exact hsocks hdot
    · refine isPortOpen_bind_eq_ok_iff.mpr ⟨hdns, ?_⟩
      refine Runs.bind_eq_ok_iff.mpr ⟨_, liftRuby_eq_ok_iff.mpr (Registry.consulPorts_of_pos hpos), ?_⟩
      refine isPortOpen_bind_eq_ok_iff.mpr ⟨hconsul, ?_⟩
      refine isPortOpen_bind_eq_ok_iff.mpr ⟨hmaster, ?_⟩
      exact isPortOpen_bind_eq_ok_iff.mpr ⟨hsensu, rfl⟩

/-! ## The route -/

/-- What is known when a poll is made: the earlier ones worked and did not show the tunnel. -/
structure Polling (net : Network) (count : Nat) : Prop where
  left : count < 10
  worked : ∀ j < count, (net.route j).isSome
  failed : ∀ j < count, ¬ TunnelAt net j

/-- A round of the poll that goes on. -/
theorem Polling.goOn {count next : Nat} (h : Polling net count) (hgo : pollRoute net.route count = .goOn next) :
    next = count + 1 ∧ Polling net next := by
  unfold pollRoute at hgo
  split at hgo
  · cases hgo
  · rename_i routes hroute
    split at hgo
    · cases hgo
    · rename_i htun
      split at hgo
      · rename_i hlt
        cases hgo
        refine ⟨rfl, hlt, fun j hj => ?_, fun j hj => ?_⟩
        · rcases Nat.lt_succ_iff_lt_or_eq.mp hj with hj | rfl
          · exact h.worked j hj
          · rw [hroute]
            rfl
        · rcases Nat.lt_succ_iff_lt_or_eq.mp hj with hj | rfl
          · exact h.failed j hj
          · rintro ⟨routes', hroute', htun'⟩
            rw [hroute] at hroute'
            cases hroute'
            exact htun htun'
      · cases hgo

/-- A round of the poll that is the last one. -/
theorem Polling.leave {count : Nat} {r : Nat × Except NetworkError Unit} (h : Polling net count)
    (hleave : pollRoute net.route count = .leave r) :
    r.1 ≤ 10 ∧ ((r.2 = .ok () ∧ TunnelAt net r.1 ∧ TunnelInTime net) ∨
      (∃ e, r.2 = .error e) ∧ ¬ TunnelInTime net) := by
  have hleft := h.left
  unfold pollRoute at hleave
  split at hleave
  · rename_i hroute
    cases hleave
    refine ⟨by dsimp only; omega, .inr ⟨⟨_, rfl⟩, ?_⟩⟩
    -- a tunnel seen later would need this poll to work
    rintro ⟨i, -, htun, hworked⟩
    rcases Nat.lt_trichotomy i count with hlt | rfl | hlt
    · exact h.failed i hlt htun
    · obtain ⟨routes, hsome, -⟩ := htun
      rw [hroute] at hsome
      cases hsome
    · have hsome := hworked count hlt
      rw [hroute] at hsome
      cases hsome
  · rename_i routes hroute
    split at hleave
    · rename_i htun
      cases hleave
      exact ⟨by dsimp only; omega, .inl ⟨rfl, ⟨routes, hroute, htun⟩, count, hleft, ⟨routes, hroute, htun⟩, h.worked⟩⟩
    · rename_i htun
      split at hleave
      · cases hleave
      · cases hleave
        refine ⟨by dsimp only; omega, .inr ⟨⟨_, rfl⟩, ?_⟩⟩
        rintro ⟨i, hi, htunnel, -⟩
        rcases Nat.lt_or_ge i count with hlt | hge
        · exact h.failed i hlt htunnel
        · obtain rfl : i = count := by omega
          obtain ⟨routes', hsome, htun'⟩ := htunnel
          rw [hroute] at hsome
          cases hsome
          exact htun htun'

/-- **The poll of the route ends**, after at most ten failed polls. -/
theorem exists_polled (net : Network) :
    ∃ r, Ends (pollRoute net.route) 0 r ∧ r.1 ≤ 10 ∧
      ((r.2 = .ok () ∧ TunnelAt net r.1 ∧ TunnelInTime net) ∨ (∃ e, r.2 = .error e) ∧ ¬ TunnelInTime net) := by
  have hstart : Polling net 0 := ⟨by omega, fun j hj => absurd hj (by omega), fun j hj => absurd hj (by omega)⟩
  obtain ⟨r, hr⟩ := exists_run_of_measure (Polling net) (fun count => 10 - count)
    (fun count next h hgo => by
      obtain ⟨rfl, hnext⟩ := h.goOn hgo
      have hleft := h.left
      exact ⟨hnext, by omega⟩) hstart
  have hends : Ends (pollRoute net.route) 0 r := ⟨_, hr⟩
  obtain ⟨count, hcount, hleave⟩ := hends.invariant (Polling net) (fun _ _ h hgo => (h.goOn hgo).2) hstart
  exact ⟨r, hends, hcount.leave hleave⟩

/-! ## The gate -/

/-- What the gate comes to, once the poll of the route is left. -/
theorem waitUntilNetworkOk_of_polled (cluster_id : Int) {polls : Nat} {polled : Except NetworkError Unit}
    (h : Ends (pollRoute net.route) 0 (polls, polled)) :
    ∃ rounds, waitUntilNetworkOk net cluster_id rounds =
      some (polls, polled.bind fun _ => probeEndpoints net cluster_id) := by
  obtain ⟨rounds, hrun⟩ := h
  refine ⟨rounds, ?_⟩
  rw [waitUntilNetworkOk, hrun]
  rfl

/-- The gate comes to one result only. -/
theorem waitUntilNetworkOk_unique {n m : Nat} {r r' : Nat × Except NetworkError Unit}
    (h : waitUntilNetworkOk net cluster_id n = some r) (h' : waitUntilNetworkOk net cluster_id m = some r') :
    r = r' := by
  obtain ⟨p, hp, rfl⟩ := Option.map_eq_some_iff.mp h
  obtain ⟨p', hp', rfl⟩ := Option.map_eq_some_iff.mp h'
  obtain rfl : p = p' := Ends.unique ⟨n, hp⟩ ⟨m, hp'⟩
  rfl

/-- A gate that nothing cuts short. -/
theorem unhindered_iff :
    Unhindered net cluster_id ↔ TunnelInTime net ∧ probeEndpoints net cluster_id = .ok () := by
  rw [probeEndpoints_eq_ok_iff]
  exact ⟨fun h => ⟨h.tunnel, h.proxy, h.clusterId, h.attempts⟩, fun ⟨h₁, h₂, h₃, h₄⟩ => ⟨h₁, h₂, h₃, h₄⟩⟩

/-- **The gate is right exactly when an unhindered node finds no endpoint shut.** -/
theorem gated_iff : Gated net cluster_id ↔
    (Unhindered net cluster_id → ∀ g ∈ gates net, ¬ Shut (attemptsOn net cluster_id g)) := by
  obtain ⟨⟨polls, polled⟩, hends, hpolls, htunnel⟩ := exists_polled net
  obtain ⟨rounds, hwait⟩ := waitUntilNetworkOk_of_polled cluster_id hends
  constructor
  · rintro ⟨n, polls', result, hwait', -, hresult⟩ hfree g hg
    obtain ⟨rfl, rfl⟩ := Prod.mk.inj (waitUntilNetworkOk_unique hwait' hwait)
    obtain ⟨hin, hprobe⟩ := unhindered_iff.mp hfree
    rcases htunnel with ⟨hpolled, -, -⟩ | ⟨-, hnot⟩
    · dsimp only at hpolled
      subst hpolled
      rcases hresult with ⟨-, -, haccepts⟩ | ⟨e, he⟩
      · exact (haccepts g hg).not_shut
      · rw [Except.bind, hprobe] at he
        cases he
    · exact absurd hin hnot
  · intro hopen
    refine ⟨rounds, polls, _, hwait, hpolls, ?_⟩
    rcases htunnel with ⟨hpolled, htun, hin⟩ | ⟨⟨e, he⟩, -⟩
    · dsimp only at hpolled htun
      subst hpolled
      cases hprobe : probeEndpoints net cluster_id with
      | error e => exact .inr ⟨e, rfl⟩
      | ok u =>
        have hfree : Unhindered net cluster_id := unhindered_iff.mpr ⟨hin, hprobe⟩
        refine .inl ⟨rfl, htun, fun g hg => ?_⟩
        exact (accepts_or_shut (hfree.attempts g hg)).resolve_right (hopen hfree g hg)
    · dsimp only at he
      subst he
      exact .inr ⟨e, rfl⟩

/-- The tunnel is up, the node has no proxy, and the framework master refuses every connection. -/
def masterDown : Network where
  route _ := some "default dev tun0".toList
  socksProxyIp := some []
  sensuRabbitmqHost := some "51.0.1.6".toList
  password := none
  stderr _ := []
  connect
    | .master, _, _ => .refused
    | _, _, _ => .accepted

/-- The gate lets the node through although the master is shut. -/
theorem masterDown_not_gated :
    (∃ rounds, waitUntilNetworkOk masterDown 7 rounds = some (0, .ok ())) ∧
      Shut (attemptsOn masterDown 7 .master) ∧ ¬ Gated masterDown 7 := by
  have hshut : Shut (attemptsOn masterDown 7 .master) := fun _ _ => rfl
  have hprobe : probeEndpoints masterDown 7 = .ok () := rfl
  have htun : includes "default dev tun0".toList "dev tun0".toList = true := by decide
  have hleave : pollRoute masterDown.route 0 = .leave (0, .ok ()) := by
    rw [pollRoute, masterDown]
    exact if_pos htun
  obtain ⟨rounds, hwait⟩ := waitUntilNetworkOk_of_polled 7 ⟨1, run_succ_of_leave hleave⟩
  rw [Except.bind, hprobe] at hwait
  refine ⟨⟨rounds, hwait⟩, hshut, ?_⟩
  rintro ⟨n, polls, result, hwait', -, ⟨-, -, haccepts⟩ | ⟨e, rfl⟩⟩
  · exact (haccepts .master (by decide)).not_shut hshut
  · cases waitUntilNetworkOk_unique hwait hwait'

end GexCloud.Slave
