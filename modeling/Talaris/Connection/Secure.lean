import Talaris.Tls

/-!
# Ciphertext on its way to the caller

rustls appends what it wants to send to a queue of its own, and `write_tls` empties the queue
into the vector it is given.  Whatever the adapter is asked to do and however it fails, it
hands over the ciphertext in the order in which rustls emitted it (`Serves`).
-/

namespace Talaris

open Talaris.Ws

section Emission

variable [Rustls]

/-- What a session emits on its way to a later state of it. -/
inductive Rustls.Emits (session : Rustls.Session) : Bytes → Rustls.Session → Prop where
  | nothing : Emits session [] session
  | read {bytes : Bytes} {later : Rustls.Session} (src : Bytes) :
      Emits session bytes later → Emits session bytes (Rustls.readTls later src).1
  | processed {bytes : Bytes} {later : Rustls.Session} :
      Emits session bytes later →
      Emits session (bytes ++ (Rustls.processNewPackets later).2.2.1)
        (Rustls.processNewPackets later).1
  | wrote {bytes : Bytes} {later : Rustls.Session} (queued src : Bytes) :
      Emits session bytes later →
      Emits session (bytes ++ (Rustls.write later queued src).2.2)
        (Rustls.write later queued src).1

theorem Rustls.Emits.trans {session middle last : Rustls.Session} {first second : Bytes}
    (before : Rustls.Emits session first middle) (after : Rustls.Emits middle second last) :
    Rustls.Emits session (first ++ second) last := by
  induction after with
  | nothing => simpa using before
  | read src _ ih => exact ih.read src
  | processed _ ih =>
      rw [← List.append_assoc]
      exact ih.processed
  | wrote queued src _ ih =>
      rw [← List.append_assoc]
      exact ih.wrote queued src

/-- A record of everything a session has emitted. -/
structure Rustls.Records (record : Rustls.Session → Bytes) : Prop where
  connect : ∀ config name session hello,
    Rustls.connect config name = .ok (session, hello) → record session = hello
  readTls : ∀ session src, record (Rustls.readTls session src).1 = record session
  processNewPackets : ∀ session, record (Rustls.processNewPackets session).1 =
    record session ++ (Rustls.processNewPackets session).2.2.1
  write : ∀ session queued src, record (Rustls.write session queued src).1 =
    record session ++ (Rustls.write session queued src).2.2

theorem Rustls.Records.emits {record : Rustls.Session → Bytes} (records : Rustls.Records record)
    {session later : Rustls.Session} {bytes : Bytes} (emits : Rustls.Emits session bytes later) :
    record later = record session ++ bytes := by
  induction emits with
  | nothing => simp
  | read src _ ih => rw [records.readTls, ih]
  | processed _ ih => rw [records.processNewPackets, ih, List.append_assoc]
  | wrote queued src _ ih => rw [records.write, ih, List.append_assoc]

namespace TlsAdapter

/-- The adapter hands `bytes` over: the oldest of what was queued and of what is emitted. -/
def Serves (tls : TlsAdapter) (bytes : Bytes) (tls' : TlsAdapter) : Prop :=
  ∃ emitted, Rustls.Emits tls.conn.session emitted tls'.conn.session ∧
    bytes ++ tls'.conn.sendable = tls.conn.sendable ++ emitted

theorem Serves.nothing (tls : TlsAdapter) : tls.Serves [] tls := ⟨[], .nothing, by simp⟩

theorem Serves.trans {tls tls' tls'' : TlsAdapter} {first second : Bytes}
    (before : tls.Serves first tls') (after : tls'.Serves second tls'') :
    tls.Serves (first ++ second) tls'' := by
  obtain ⟨emitted, emits, handed⟩ := before
  obtain ⟨more, emits', handed'⟩ := after
  refine ⟨emitted ++ more, emits.trans emits', ?_⟩
  rw [List.append_assoc, handed', ← List.append_assoc, handed, List.append_assoc]

theorem drainCiphertext_serves (tls : TlsAdapter) :
    tls.Serves tls.drainCiphertext.2 tls.drainCiphertext.1 := ⟨[], .nothing, by simp [drainCiphertext]⟩

theorem processAndDrain_serves (tls : TlsAdapter) :
    tls.Serves tls.processAndDrain.ciphertext tls.processAndDrain.tls := by
  have emits : Rustls.Emits tls.conn.session _ _ := Rustls.Emits.nothing.processed
  rw [List.nil_append] at emits
  unfold processAndDrain
  generalize Rustls.processNewPackets tls.conn.session = outcome at emits
  obtain ⟨session, chunks, bytes, answer⟩ := outcome
  dsimp only at emits ⊢
  cases answer with
  | error e => exact ⟨bytes, emits, rfl⟩
  | ok peerClosed =>
      simp only [drainPlaintext]
      cases Rustls.readerEnd session with
      | error e => exact ⟨bytes, emits, rfl⟩
      | ok done => exact ⟨bytes, emits, by simp [drainCiphertext]⟩

theorem readTls_serves {tls : TlsAdapter} {src : Bytes} {session : Rustls.Session}
    {result : Except IoError Nat}
    (read : Rustls.readTls tls.conn.session src = (session, result)) :
    tls.Serves [] { tls with conn := { tls.conn with session } } := by
  have emits : Rustls.Emits tls.conn.session [] (Rustls.readTls tls.conn.session src).1 :=
    Rustls.Emits.nothing.read src
  rw [read] at emits
  exact ⟨[], emits, by simp⟩

/-- Room is made before a read if rustls wants none. -/
theorem room_serves (tls : TlsAdapter) :
    let room : TlsOutcome :=
      if Rustls.wantsRead tls.conn.session then ⟨tls, [], [], .ok ()⟩ else tls.processAndDrain
    tls.Serves room.ciphertext room.tls := by
  dsimp only
  split
  next => exact .nothing tls
  next => exact tls.processAndDrain_serves

theorem ingestLoop_serves (tls : TlsAdapter) (src : Bytes) (processed : Bool) :
    tls.Serves (tls.ingestLoop src processed).ciphertext (tls.ingestLoop src processed).tls := by
  fun_induction ingestLoop tls src processed with
  | case1 tls => exact .nothing tls
  | case2 tls => exact tls.processAndDrain_serves
  | case3 tls | case4 tls => exact tls.room_serves
  | case5 tls src processed nonempty room ready wants session e read tls' =>
      exact tls.room_serves.trans ((readTls_serves read).trans (.nothing _))
  | case6 tls src processed nonempty room ready wants session tls' read =>
      refine tls.room_serves.trans ((readTls_serves read).trans ?_)
      split
      next => exact .nothing _
      next => exact processAndDrain_serves _
  | case7 tls src processed nonempty room ready wants session n read tls' some step e failed =>
      exact tls.room_serves.trans ((readTls_serves read).trans (processAndDrain_serves _))
  | case8 tls src processed nonempty room ready wants session n read tls' some step done ih =>
      exact tls.room_serves.trans
        ((readTls_serves read).trans ((processAndDrain_serves _).trans ih))

theorem ingestCiphertext_serves (tls : TlsAdapter) (src : Bytes) :
    tls.Serves (tls.ingestCiphertext src).ciphertext (tls.ingestCiphertext src).tls :=
  tls.ingestLoop_serves src false

theorem writeAll_serves (tls : TlsAdapter) (src : Bytes) : tls.Serves [] (tls.writeAll src).1 := by
  have wrote {tls : TlsAdapter} {src : Bytes} {session : Rustls.Session} {n : Nat} {bytes : Bytes}
      (write : Rustls.write tls.conn.session tls.conn.sendable src = (session, n, bytes)) :
      tls.Serves [] { tls with conn := { tls.conn with
        session, sendable := tls.conn.sendable ++ bytes } } := by
    have emits : Rustls.Emits tls.conn.session _ _ :=
      Rustls.Emits.nothing.wrote tls.conn.sendable src
    rw [write, List.nil_append] at emits
    exact ⟨bytes, emits, rfl⟩
  fun_induction writeAll tls src with
  | case1 tls => exact .nothing tls
  | case2 tls src nonempty session bytes tls' write => exact wrote write
  | case3 tls src nonempty session n bytes write tls' some ih => exact (wrote write).trans ih

theorem egressPlaintext_serves (tls : TlsAdapter) (src : Bytes) :
    tls.Serves (tls.egressPlaintext src).2.1 (tls.egressPlaintext src).1 := by
  have written := tls.writeAll_serves src
  unfold egressPlaintext
  split
  next tls' e refused =>
    rw [refused] at written
    exact written
  next tls' accepted =>
    rw [accepted] at written
    exact written.trans tls'.drainCiphertext_serves

/-- A failed call hands nothing over. -/
theorem egressPlaintext_failed (tls : TlsAdapter) (src : Bytes) {e : TlsError}
    (failed : (tls.egressPlaintext src).2.2 = .error e) : (tls.egressPlaintext src).2.1 = [] := by
  unfold egressPlaintext at failed ⊢
  cases written : tls.writeAll src with
  | mk tls' result =>
      cases result with
      | error e => rfl
      | ok done => simp [written] at failed

end TlsAdapter

/-- The TLS layer of a connection moves on, and what it hands over waits behind the rest. -/
inductive SecureMove : Option TlsAdapter → Bytes → Option TlsAdapter → Bytes → Prop where
  | same (tls : Option TlsAdapter) (pendingOut : Bytes) : SecureMove tls pendingOut tls pendingOut
  | served {tls tls' : TlsAdapter} {bytes : Bytes} (pendingOut : Bytes) :
      tls.Serves bytes tls' → SecureMove (some tls) pendingOut (some tls') (pendingOut ++ bytes)

namespace SecureMove

variable {tls tls' tls'' : Option TlsAdapter} {pendingOut pendingOut' pendingOut'' : Bytes}

theorem trans (first : SecureMove tls pendingOut tls' pendingOut')
    (second : SecureMove tls' pendingOut' tls'' pendingOut'') :
    SecureMove tls pendingOut tls'' pendingOut'' := by
  cases first with
  | same => exact second
  | served _ serves =>
      cases second with
      | same => exact .served _ serves
      | served _ serves' =>
          rw [List.append_assoc]
          exact .served _ (serves.trans serves')

theorem isSome (move : SecureMove tls pendingOut tls' pendingOut') : tls'.isSome = tls.isSome := by
  cases move <;> rfl

end SecureMove

end Emission

end Talaris
