import CWebFramework.HttpClient.Pool

/-!
# Whose handshake a request relies on

A connection in the pool was established for the host, the port and the use of
TLS under which it is found again.  The key says nothing about the verification
of the peer: only if all clients of a host agree on it does a client that
verifies its peer get a connection with a verified one.
-/

namespace CWebFramework.HttpClient

open Transition

/-! ## Keys -/

private theorem takeWhile_key (host : Bytes) (port : Nat) :
    (makeHostKey host port).reverse.takeWhile (· != Byte.colon) = (decimal port).reverse := by
  have digits : ∀ byte ∈ (decimal port).reverse, (byte != Byte.colon) = true := by
    intro byte isIn
    rw [List.mem_reverse] at isIn
    have isDigit := isdigit_decimal port byte isIn
    rw [bne_iff_ne]
    rintro rfl
    cases isDigit
  have shape : (makeHostKey host port).reverse =
      (decimal port).reverse ++ Byte.colon :: host.reverse := by
    simp [makeHostKey]
  rw [shape, List.takeWhile_append_of_pos digits]
  exact List.append_nil _

private theorem makeHostKey_inj {host otherHost : Bytes} {port otherPort : Nat}
    (same : makeHostKey host port = makeHostKey otherHost otherPort) :
    host = otherHost ∧ port = otherPort := by
  have ports := takeWhile_key host port
  rw [same, takeWhile_key, List.reverse_inj] at ports
  have samePort : port = otherPort := by
    rw [← digitsValue_decimal port, ← ports, digitsValue_decimal]
  subst samePort
  exact ⟨List.append_cancel_right same, rfl⟩

/-! ## What the pool holds -/

def Pool.All (property : Bytes → PooledConnection → Prop) (pool : Pool) :
    Prop :=
  ∀ key connections, pool key = some connections → ∀ pooled ∈ connections, property key pooled

theorem Pool.All.set {property : Bytes → PooledConnection → Prop} {pool : Pool}
    (all : pool.All property) {key : Bytes} {connections : List PooledConnection}
    (holds : ∀ pooled ∈ connections, property key pooled) :
    (pool.set key connections).All property := by
  intro other found isFound pooled isIn
  unfold Pool.set at isFound
  split_ifs at isFound with same
  · cases isFound
    exact same ▸ holds pooled isIn
  · exact all other found isFound pooled isIn

/-- The handshake of a pooled connection was for its key. -/
def Established (handshakes : List Handshake) (key : Bytes) (pooled : PooledConnection) : Prop :=
  ∃ handshake, handshakes[pooled.connection]? = some handshake ∧
    makeHostKey handshake.host handshake.port = key ∧
    handshake.useSsl = pooled.useSsl

theorem Established.congr {handshakes : List Handshake} {key : Bytes}
    {pooled other : PooledConnection} (established : Established handshakes key pooled)
    (sameConnection : other.connection = pooled.connection)
    (sameSsl : other.useSsl = pooled.useSsl) :
    Established handshakes key other := by
  unfold Established
  rw [sameConnection, sameSsl]
  exact established

theorem Established.snoc {handshakes : List Handshake} {key : Bytes} {pooled : PooledConnection}
    (established : Established handshakes key pooled)
    (handshake : Handshake) :
    Established (handshakes ++ [handshake]) key pooled := by
  obtain ⟨found, isFound, same⟩ := established
  refine ⟨found, ?_, same⟩
  rw [List.getElem?_append_left (List.getElem?_eq_some_iff.mp isFound).1]
  exact isFound

section Pool

variable {handshakes : List Handshake} {pool : Pool} {now : Int}
  {alive : Nat → Bool} {useSsl : Bool} {host key : Bytes} {port connection : Nat}

theorem acquireLoop_established {connections : List PooledConnection}
    (all : ∀ pooled ∈ connections, Established handshakes key pooled) :
    (∀ pooled ∈ (acquireLoop now alive useSsl connections).1, Established handshakes key pooled) ∧
      ∀ taken ∈ (acquireLoop now alive useSsl connections).2,
        ∃ handshake, handshakes[taken]? = some handshake ∧
          makeHostKey handshake.host handshake.port = key ∧
          handshake.useSsl = useSsl := by
  induction connections with
  | nil => exact ⟨nofun, nofun⟩
  | cons pooled rest ih =>
    rw [List.forall_mem_cons] at all
    obtain ⟨kept, taken⟩ := ih all.2
    rw [acquireLoop]
    split
    · exact ⟨List.forall_mem_cons.mpr ⟨all.1, kept⟩, taken⟩
    · rename_i usable
      split
      · refine ⟨List.forall_mem_cons.mpr ⟨all.1.congr rfl rfl, all.2⟩, ?_⟩
        rintro _ ⟨rfl⟩
        obtain ⟨handshake, isFound, isKey, sameSsl⟩ := all.1
        simp only [Bool.or_eq_true, not_or, bne_iff_ne, ne_eq, not_not] at usable
        exact ⟨handshake, isFound, isKey, sameSsl.trans usable.2⟩
      · exact ⟨kept, taken⟩

private theorem acquire_established (all : pool.All (Established handshakes))
    (now : Int) (alive : Nat → Bool) (host : Bytes) (port : Nat)
    (useSsl : Bool) :
    (httpclientpoolAcquire now alive pool host port useSsl).1.All (Established handshakes) ∧
      ∀ taken ∈ (httpclientpoolAcquire now alive pool host port useSsl).2,
        ∃ handshake, handshakes[taken]? = some handshake ∧
          makeHostKey handshake.host handshake.port = makeHostKey host port ∧
          handshake.useSsl = useSsl := by
  unfold httpclientpoolAcquire
  cases found : pool (makeHostKey host port) with
  | none => exact ⟨all, nofun⟩
  | some connections =>
    obtain ⟨kept, taken⟩ := acquireLoop_established (all (makeHostKey host port) connections found)
    exact ⟨all.set kept, taken⟩

private theorem releaseLoop_established {connections released : List PooledConnection}
    (all : ∀ pooled ∈ connections, Established handshakes key pooled)
    (isReleased : releaseLoop now connection connections = some released) :
    ∀ pooled ∈ released, Established handshakes key pooled := by
  induction connections generalizing released with
  | nil => cases isReleased
  | cons pooled rest ih =>
    rw [List.forall_mem_cons] at all
    rw [releaseLoop] at isReleased
    split_ifs at isReleased
    · cases isReleased
      exact List.forall_mem_cons.mpr ⟨all.1.congr rfl rfl, all.2⟩
    · obtain ⟨behind, isBehind, rfl⟩ := Option.map_eq_some_iff.mp isReleased
      exact List.forall_mem_cons.mpr ⟨all.1, ih all.2 isBehind⟩

theorem release_established (all : pool.All (Established handshakes)) {handshake : Handshake}
    (isFound : handshakes[connection]? = some handshake)
    (isKey : makeHostKey handshake.host handshake.port = makeHostKey host port)
    (sameSsl : handshake.useSsl = useSsl) :
    (httpclientpoolRelease now pool host port connection useSsl).All (Established handshakes) := by
  have present : ∀ pooled ∈ (pool (makeHostKey host port)).getD [],
      Established handshakes (makeHostKey host port) pooled := by
    cases found : pool (makeHostKey host port) with
    | none => exact nofun
    | some connections => exact all _ connections found
  unfold httpclientpoolRelease
  dsimp only
  split
  · rename_i released isReleased
    exact all.set (releaseLoop_established present isReleased)
  · split_ifs
    · exact all.set present
    · exact all.set (List.forall_mem_cons.mpr ⟨⟨handshake, isFound, isKey, sameSsl⟩, present⟩)

private theorem discard_established (all : pool.All (Established handshakes)) :
    (httpclientpoolDiscard pool host port connection).All (Established handshakes) := by
  unfold httpclientpoolDiscard
  cases found : pool (makeHostKey host port) with
  | none => exact all
  | some connections =>
    refine all.set fun pooled isIn => ?_
    exact all _ connections found pooled (List.mem_of_mem_eraseP isIn)

private theorem cleanup_established (all : pool.All (Established handshakes)) :
    (httpclientpoolCleanupExpired now pool).All (Established handshakes) := by
  intro other connections isKept pooled isIn
  obtain ⟨before, found, isKept⟩ := Option.bind_eq_some_iff.mp isKept
  dsimp only at isKept
  split_ifs at isKept
  cases isKept
  exact all other before found pooled (List.mem_filter.mp isIn).1

end Pool

/-! ## Runs -/

/-- What the clients of a host and a port agree on: that they verify their peer
with a certificate authority, or that they do not verify it. -/
abbrev Policy := Bytes → Nat → Option (Option Bytes)

/-- A connection with TLS follows the policy for its host. -/
def Handshake.Follows (policy : Policy) (handshake : Handshake) : Prop :=
  handshake.useSsl = true → policy handshake.host handshake.port =
    if handshake.verifyPeer then some handshake.caPath else none

instance (policy : Policy) (handshake : Handshake) : Decidable (handshake.Follows policy) :=
  inferInstanceAs (Decidable (_ → _))

def Agreed (policy : Policy) (world : World) : Action → Prop
  | .createConnection client _ _ _ =>
    (world.clients client).handshake.Follows policy
  | _ => True

instance (policy : Policy) (world : World) (action : Action) :
    Decidable (Agreed policy world action) := by
  cases action <;> unfold Agreed <;> infer_instance

/-- The connection of a client was established for its host and its use of TLS,
and the client follows the policy. -/
def Client.Sound (policy : Policy) (handshakes : List Handshake) (client : Client) : Prop :=
  ∀ connection ∈ client.connection, client.handshake.Follows policy ∧
    ∃ handshake, handshakes[connection]? = some handshake ∧
      makeHostKey handshake.host handshake.port = makeHostKey client.host client.port ∧
      handshake.useSsl = client.useSsl

structure World.Sound (policy : Policy) (world : World) : Prop where
  pool : world.pool.All (Established world.handshakes)
  clients : ∀ number, (world.clients number).Sound policy world.handshakes
  handshakes : ∀ handshake ∈ world.handshakes, handshake.Follows policy

theorem World.start_sound (policy : Policy) : World.start.Sound policy where
  pool := nofun
  clients _ := nofun
  handshakes := nofun

section Steps

variable {policy : Policy} {world : World}

theorem World.Sound.update (sound : world.Sound policy) {pool : Pool}
    (poolSound : pool.All (Established world.handshakes)) (number : Nat)
    {client : Client} (clientSound : client.Sound policy world.handshakes) :
    ({ world with pool := pool }.update number client).Sound policy where
  pool := poolSound
  clients other := by
    unfold World.update
    dsimp only
    split_ifs
    · exact clientSound
    · exact sound.clients other
  handshakes := sound.handshakes

theorem World.Sound.connect (sound : world.Sound policy) (number : Nat)
    (follows : (world.clients number).handshake.Follows policy) {pool : Pool}
    (poolSound : pool.All (Established world.handshakes)) :
    ({ world with
        pool := pool
        handshakes := world.handshakes ++ [(world.clients number).handshake] }.update number
      { world.clients number with
        connection := some world.handshakes.length }).Sound policy where
  pool := fun key connections found pooled isIn =>
    (poolSound key connections found pooled isIn).snoc _
  clients other := by
    unfold World.update
    dsimp only
    split_ifs
    · rintro _ ⟨rfl⟩
      exact ⟨follows, (world.clients number).handshake, by simp, rfl, rfl⟩
    · intro connection isOpen
      obtain ⟨agrees, handshake, isFound, same⟩ := sound.clients other connection isOpen
      refine ⟨agrees, handshake, ?_, same⟩
      show (world.handshakes ++ [(world.clients number).handshake])[ connection]? = some handshake
      rw [List.getElem?_append_left (List.getElem?_eq_some_iff.mp isFound).1]
      exact isFound
  handshakes := by
    intro handshake isIn
    rcases List.mem_append.mp isIn with isOld | isNew
    · exact sound.handshakes handshake isOld
    · rw [List.mem_singleton.mp isNew]
      exact follows

theorem createConnection_sound (sound : world.Sound policy) (number : Nat)
    (follows : (world.clients number).handshake.Follows policy) (now : Int)
    (alive : Nat → Bool) (established : Bool) :
    (createConnection world number now alive established).Sound policy := by
  obtain ⟨poolSound, taken⟩ := acquire_established sound.pool now alive
    (world.clients number).host (world.clients number).port
    (world.clients number).useSsl
  unfold createConnection
  dsimp only
  split
  · rename_i pool connection acquired
    rw [acquired] at poolSound taken
    apply sound.update poolSound
    rintro _ ⟨rfl⟩
    exact ⟨follows, taken connection rfl⟩
  · rename_i pool acquired
    rw [acquired] at poolSound
    split_ifs
    · exact sound.connect number follows poolSound
    · exact ⟨poolSound, sound.clients, sound.handshakes⟩

theorem perform_sound {action : Action} {next : World} (agreed : Agreed policy world action)
    (performed : perform world action = some next)
    (sound : world.Sound policy) : next.Sound policy := by
  cases action with
  | setVerify number verify caPath =>
    simp only [perform] at performed
    split_ifs at performed with idle
    cases performed
    exact sound.update sound.pool number (by
      intro connection isOpen
      rw [idle] at isOpen
      cases isOpen)
  | setUrl number host port useSsl =>
    simp only [perform] at performed
    split_ifs at performed with idle
    cases performed
    exact sound.update sound.pool number (by
      intro connection isOpen
      rw [idle] at isOpen
      cases isOpen)
  | createConnection number now alive established =>
    simp only [perform] at performed
    split_ifs at performed
    cases performed
    exact createConnection_sound sound number agreed now alive established
  | freeConnection number now keepAlive =>
    simp only [perform] at performed
    obtain ⟨connection, isOpen, rfl⟩ := Option.map_eq_some_iff.mp performed
    obtain ⟨-, handshake, isFound, isKey, sameSsl⟩ := sound.clients number connection isOpen
    refine sound.update ?_ number nofun
    split_ifs
    · exact release_established sound.pool isFound isKey sameSsl
    · exact discard_established sound.pool
  | discardConnection number =>
    simp only [perform] at performed
    obtain ⟨connection, isOpen, rfl⟩ := Option.map_eq_some_iff.mp performed
    exact sound.update (discard_established sound.pool) number nofun
  | cleanupExpired now =>
    cases performed
    exact ⟨cleanup_established sound.pool, sound.clients, sound.handshakes⟩

end Steps

/-- The request of a client that verifies its peer is sent over a connection
whose peer was verified with the same certificate authority, for the same host
and port. -/
def Client.Verified (handshakes : List Handshake) (client : Client) : Prop :=
  ∀ connection ∈ client.connection, client.useSsl = true → client.verifyPeer = true →
      handshakes[connection]? = some client.handshake

instance (handshakes : List Handshake) (client : Client) : Decidable (client.Verified handshakes) :=
  inferInstanceAs (Decidable (∀ _ ∈ client.connection, _))

/-- If the clients of each host agree on the verification of the peer, all of
them get what they ask for. -/
theorem clients_verified (policy : Policy) {actions : List Action} {world : World}
    (agreed : clients.Meets (Agreed policy) .start actions)
    (run : clients.exec .start actions = some world) (number : Nat) :
    (world.clients number).Verified world.handshakes := by
  have sound : world.Sound policy :=
    clients.exec_invariant perform_sound agreed run (World.start_sound policy)
  intro connection isOpen useSsl verifyPeer
  obtain ⟨follows, handshake, isFound, isKey, sameSsl⟩ := sound.clients number connection isOpen
  obtain ⟨sameHost, samePort⟩ := makeHostKey_inj isKey
  have other := sound.handshakes handshake (List.mem_of_getElem? isFound) (sameSsl.trans useSsl)
  have own : policy (world.clients number).host (world.clients number).port =
      some (world.clients number).caPath := by
    have agreedOn := follows useSsl
    rw [show (world.clients number).handshake.verifyPeer = true from
      verifyPeer] at agreedOn
    exact agreedOn
  rw [sameHost, samePort, own] at other
  cases verified : handshake.verifyPeer with
  | false =>
    rw [verified] at other
    cases other
  | true =>
    rw [verified] at other
    have sameCa := Option.some.inj other
    rw [isFound]
    refine congrArg some ?_
    cases handshake
    simp only [Client.handshake, Handshake.mk.injEq]
    exact ⟨sameHost, samePort, sameSsl, verified.trans verifyPeer.symm, sameCa.symm⟩

def reached (actions : List Action) : World := (clients.exec .start actions).getD .start

theorem exec_reached {actions : List Action} (runs : (clients.exec .start actions).isSome = true) :
    clients.exec .start actions = some (reached actions) := by
  obtain ⟨world, run⟩ := Option.isSome_iff_exists.mp runs
  unfold reached
  rw [run]
  rfl

def twoRequests (verifyFirst : Bool) : List Action :=
  [.setUrl 0 (ascii "api") 443 true, .setVerify 0 verifyFirst none,
    .createConnection 0 0 (fun _ => true) true, .freeConnection 0 1 true,
    .setUrl 1 (ascii "api") 443 true,
    .createConnection 1 2 (fun _ => true) true]

theorem clients_verified_reused : ((reached (twoRequests true)).clients 1).connection = some 0 ∧
      ((reached (twoRequests true)).clients 1).Verified (reached (twoRequests true)).handshakes :=
  ⟨by decide +kernel, clients_verified (fun _ _ => some none) (by decide +kernel)
      (exec_reached (by decide +kernel)) 1⟩

/-- The second client verifies its peer and gets the connection of the first
one, which does not. -/
theorem clients_unverified_reused : clients.exec .start (twoRequests false) =
        some (reached (twoRequests false)) ∧
      ((reached (twoRequests false)).clients 1).verifyPeer = true ∧
      ((reached (twoRequests false)).clients 1).connection = some 0 ∧
      (reached (twoRequests false)).handshakes.map (·.verifyPeer) = [false] ∧
      ¬ ((reached (twoRequests false)).clients 1).Verified
        (reached (twoRequests false)).handshakes :=
  ⟨exec_reached (by decide +kernel), by decide +kernel⟩

end CWebFramework.HttpClient
