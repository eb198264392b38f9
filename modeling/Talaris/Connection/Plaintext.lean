import Talaris.Connection.Secure

/-!
# Plaintext on its way to the client

What the client of a connection reads are the bytes of the completions, or what the session of
the TLS layer makes of them.  The adapter hands out everything that its session has decrypted, in
order (`Ingests`), and sending decrypts nothing (`Egress`).
-/

namespace Talaris

open Talaris.Ws

section Decryption

variable [Rustls]

/-- A record of everything a session has decrypted. -/
structure Rustls.Decrypts (plain : Rustls.Session → Bytes) : Prop where
  connect : ∀ config name session hello,
    Rustls.connect config name = .ok (session, hello) → plain session = []
  readTls : ∀ session src, plain (Rustls.readTls session src).1 = plain session
  processNewPackets : ∀ session, plain (Rustls.processNewPackets session).1 =
    plain session ++ (Rustls.processNewPackets session).2.1.flatten
  write : ∀ session queued src, plain (Rustls.write session queued src).1 = plain session

/-- A session that has been written to. -/
inductive Rustls.Writes (session : Rustls.Session) : Rustls.Session → Prop where
  | nothing : Writes session session
  | wrote {later : Rustls.Session} (queued src : Bytes) :
      Writes session later → Writes session (Rustls.write later queued src).1

theorem Rustls.Writes.trans {session middle last : Rustls.Session}
    (before : Rustls.Writes session middle) (after : Rustls.Writes middle last) :
    Rustls.Writes session last := by
  induction after with
  | nothing => exact before
  | wrote queued src _ ih => exact ih.wrote queued src

theorem Rustls.Decrypts.writes {plain : Rustls.Session → Bytes} (decrypts : Rustls.Decrypts plain)
    {session later : Rustls.Session} (writes : Rustls.Writes session later) :
    plain later = plain session := by
  induction writes with
  | nothing => rfl
  | wrote queued src _ ih => rw [decrypts.write, ih]

namespace TlsAdapter

variable {plain : Rustls.Session → Bytes} {tls : TlsAdapter} {outcome : TlsOutcome}

/-- The adapter hands out what its session decrypts, all of it if the call succeeds. -/
structure Ingests (plain : Rustls.Session → Bytes) (tls : TlsAdapter) (outcome : TlsOutcome) :
    Prop where
  opens : ∃ more, plain outcome.tls.conn.session = plain tls.conn.session ++ more ∧
    outcome.plaintext.flatten ++ outcome.tls.conn.received.flatten =
      tls.conn.received.flatten ++ more
  drained : outcome.result = .ok () → tls.conn.received = [] → outcome.tls.conn.received = []

theorem Ingests.nothing (tls : TlsAdapter) (result : Except TlsError Unit) :
    Ingests plain tls ⟨tls, [], [], result⟩ :=
  ⟨⟨[], by simp, by simp⟩, fun _ empty => empty⟩

theorem Ingests.after {first second : TlsOutcome} (before : Ingests plain tls first)
    (went : first.result = .ok ()) (after : Ingests plain first.tls second) :
    Ingests plain tls (first.after second) := by
  obtain ⟨⟨more, opened, handed⟩, drained⟩ := before
  obtain ⟨⟨more', opened', handed'⟩, drained'⟩ := after
  refine ⟨⟨more ++ more', ?_, ?_⟩, fun succeeded empty => drained' succeeded (drained went empty)⟩
  · rw [TlsOutcome.after, opened', opened, List.append_assoc]
  · rw [TlsOutcome.after, List.flatten_append, List.append_assoc, handed', ← List.append_assoc,
      handed, List.append_assoc]

theorem processAndDrain_ingests (decrypts : Rustls.Decrypts plain) (tls : TlsAdapter) :
    Ingests plain tls tls.processAndDrain := by
  have opened := decrypts.processNewPackets tls.conn.session
  unfold processAndDrain
  generalize Rustls.processNewPackets tls.conn.session = processed at opened
  obtain ⟨session, chunks, bytes, answer⟩ := processed
  cases answer with
  | error e => exact ⟨⟨chunks.flatten, opened, by simp⟩, by simp⟩
  | ok peerClosed =>
      simp only [drainPlaintext]
      cases Rustls.readerEnd session with
      | error e => exact ⟨⟨chunks.flatten, opened, by simp⟩, by simp⟩
      | ok done => exact ⟨⟨chunks.flatten, opened, by simp [drainCiphertext]⟩, fun _ _ => rfl⟩

/-- Taking ciphertext in decrypts nothing yet. -/
theorem readTls_ingests (decrypts : Rustls.Decrypts plain) {src : Bytes} {session : Rustls.Session}
    {answer : Except IoError Nat} (read : Rustls.readTls tls.conn.session src = (session, answer))
    (ingests : Ingests plain { tls with conn := { tls.conn with session } } outcome) :
    Ingests plain tls outcome := by
  have same := decrypts.readTls tls.conn.session src
  rw [read] at same
  obtain ⟨⟨more, opened, handed⟩, drained⟩ := ingests
  exact ⟨⟨more, by rw [opened, same], handed⟩, drained⟩

theorem room_ingests (decrypts : Rustls.Decrypts plain) (tls : TlsAdapter) :
    Ingests plain tls
      (if Rustls.wantsRead tls.conn.session then ⟨tls, [], [], .ok ()⟩ else tls.processAndDrain) := by
  split
  next => exact .nothing tls _
  next => exact processAndDrain_ingests decrypts tls

theorem ingestLoop_ingests (decrypts : Rustls.Decrypts plain) (tls : TlsAdapter) (src : Bytes)
    (processed : Bool) : Ingests plain tls (tls.ingestLoop src processed) := by
  fun_induction ingestLoop tls src processed with
  | case1 tls => exact .nothing tls _
  | case2 tls => exact processAndDrain_ingests decrypts tls
  | case3 tls | case4 tls => exact room_ingests decrypts tls
  | case5 tls src processed nonempty room ready wants session e read tls' =>
      exact (room_ingests decrypts tls).after ready (readTls_ingests decrypts read (.nothing _ _))
  | case6 tls src processed nonempty room ready wants session tls' read =>
      have rest : Ingests plain tls'
          (if processed then ⟨tls', [], [], .ok ()⟩ else tls'.processAndDrain) := by
        split
        next => exact .nothing tls' _
        next => exact processAndDrain_ingests decrypts tls'
      exact (room_ingests decrypts tls).after ready (readTls_ingests decrypts read rest)
  | case7 tls src processed nonempty room ready wants session n read tls' some step e failed =>
      exact (room_ingests decrypts tls).after ready
        (readTls_ingests decrypts read (processAndDrain_ingests decrypts _))
  | case8 tls src processed nonempty room ready wants session n read tls' some step done ih =>
      exact (room_ingests decrypts tls).after ready
        (readTls_ingests decrypts read ((processAndDrain_ingests decrypts _).after done ih))

theorem ingestCiphertext_ingests (decrypts : Rustls.Decrypts plain) (tls : TlsAdapter)
    (src : Bytes) : Ingests plain tls (tls.ingestCiphertext src) :=
  ingestLoop_ingests decrypts tls src false

theorem writeAll_writes (tls : TlsAdapter) (src : Bytes) :
    Rustls.Writes tls.conn.session (tls.writeAll src).1.conn.session ∧
      (tls.writeAll src).1.conn.received = tls.conn.received := by
  have wrote {tls : TlsAdapter} {src : Bytes} {session : Rustls.Session} {n : Nat} {bytes : Bytes}
      (write : Rustls.write tls.conn.session tls.conn.sendable src = (session, n, bytes)) :
      Rustls.Writes tls.conn.session session := by
    have once : Rustls.Writes tls.conn.session _ :=
      Rustls.Writes.nothing.wrote tls.conn.sendable src
    rwa [write] at once
  fun_induction writeAll tls src with
  | case1 tls => exact ⟨.nothing, rfl⟩
  | case2 tls src nonempty session bytes tls' write => exact ⟨wrote write, rfl⟩
  | case3 tls src nonempty session n bytes write tls' some ih =>
      exact ⟨(wrote write).trans ih.1, ih.2⟩

theorem egressPlaintext_writes (tls : TlsAdapter) (src : Bytes) :
    Rustls.Writes tls.conn.session (tls.egressPlaintext src).1.conn.session ∧
      (tls.egressPlaintext src).1.conn.received = tls.conn.received := by
  have written := tls.writeAll_writes src
  unfold egressPlaintext
  split
  next refused =>
    rw [refused] at written
    exact written
  next accepted =>
    rw [accepted] at written
    exact written

end TlsAdapter

/-! ## Sources -/

/-- The TLS layer of a connection is at most written to. -/
inductive Egress : Option TlsAdapter → Option TlsAdapter → Prop where
  | same (tls : Option TlsAdapter) : Egress tls tls
  | wrote {tls tls' : TlsAdapter} : Rustls.Writes tls.conn.session tls'.conn.session →
      tls'.conn.received = tls.conn.received → Egress (some tls) (some tls')

theorem Egress.trans {tls tls' tls'' : Option TlsAdapter} (first : Egress tls tls')
    (second : Egress tls' tls'') : Egress tls tls'' := by
  cases first with
  | same => exact second
  | wrote writes received =>
      cases second with
      | same => exact .wrote writes received
      | wrote writes' received' => exact .wrote (writes.trans writes') (received'.trans received)

theorem Egress.none {tls : Option TlsAdapter} (egress : Egress tls none) : tls = none := by
  cases egress
  rfl

theorem Egress.drained {tls tls' : Option TlsAdapter} (egress : Egress tls tls')
    (empty : ∀ adapter, tls = some adapter → adapter.conn.received = []) :
    ∀ adapter, tls' = some adapter → adapter.conn.received = [] := by
  cases egress with
  | same => exact empty
  | wrote writes received =>
      rintro _ ⟨⟩
      rw [received]
      exact empty _ rfl

/-- How the stream that a client reads comes from the bytes that its connection has received and
from its TLS layer. -/
structure Source where
  leads : Bytes → Option TlsAdapter → Bytes → Prop
  /-- Sending does not matter. -/
  egress : ∀ {received bytes tls tls'}, Egress tls tls' → leads received tls bytes →
    leads received tls' bytes
  /-- Bytes that are not looked at. -/
  idle : ∀ {received bytes tls}, leads received tls bytes → ∀ more,
    ∃ rest, leads (received ++ more) tls (bytes ++ rest)
  /-- Without TLS the bytes go to the client. -/
  direct : ∀ {received bytes}, leads received none bytes → ∀ more,
    leads (received ++ more) none (bytes ++ more)
  /-- With TLS its plaintext does. -/
  secure : ∀ {received bytes tls}, leads received (some tls) bytes → tls.conn.received = [] →
    ∀ slice, ∃ rest, leads (received ++ slice) (some (tls.ingestCiphertext slice).tls)
        (bytes ++ (tls.ingestCiphertext slice).plaintext.flatten ++ rest) ∧
      ((tls.ingestCiphertext slice).result = .ok () →
        rest = [] ∧ (tls.ingestCiphertext slice).tls.conn.received = [])

/-- A plain connection. -/
def Source.plain : Source where
  leads received tls bytes := tls = none ∧ bytes = received
  egress := by
    rintro _ _ _ _ egress ⟨rfl, rfl⟩
    cases egress
    exact ⟨rfl, rfl⟩
  idle := by
    rintro _ _ _ ⟨rfl, rfl⟩ more
    exact ⟨more, rfl, rfl⟩
  direct := by
    rintro _ _ ⟨-, rfl⟩ more
    exact ⟨rfl, rfl⟩
  secure := by
    rintro _ _ _ ⟨secured, -⟩
    cases secured

/-- A connection whose TLS layer decrypts this record. -/
def Source.decrypted {plain : Rustls.Session → Bytes} (decrypts : Rustls.Decrypts plain) :
    Source where
  leads _ tls bytes := ∃ adapter, tls = some adapter ∧ bytes = plain adapter.conn.session
  egress := by
    rintro _ _ _ _ egress ⟨adapter, rfl, rfl⟩
    cases egress with
    | same => exact ⟨adapter, rfl, rfl⟩
    | wrote writes => exact ⟨_, rfl, (decrypts.writes writes).symm⟩
  idle := by
    rintro _ _ _ ⟨adapter, rfl, rfl⟩ more
    exact ⟨[], adapter, rfl, List.append_nil _⟩
  direct := by
    rintro _ _ ⟨_, secured, -⟩
    cases secured
  secure := by
    rintro _ _ adapter ⟨_, ⟨⟩, rfl⟩ empty slice
    obtain ⟨⟨more, opened, handed⟩, drained⟩ :=
      TlsAdapter.ingestCiphertext_ingests decrypts adapter slice
    rw [empty, List.flatten_nil, List.nil_append] at handed
    refine ⟨(adapter.ingestCiphertext slice).tls.conn.received.flatten, ⟨_, rfl, ?_⟩,
      fun succeeded => ?_⟩
    · rw [opened, ← handed, List.append_assoc]
    · rw [drained succeeded empty]
      exact ⟨rfl, rfl⟩

end Decryption

end Talaris
