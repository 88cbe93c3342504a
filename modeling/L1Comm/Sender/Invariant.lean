import L1Comm.Sender.Steps
import L1Comm.Uv.History

/-!
What holds in every state of every run of a worker, whatever the environment
does and whenever the worker is stopped: which addresses are in use, and that
the only socket with requests pending that is still open is the one
`conn_struct.socket` and the local variable `socket` name while the thread is
in its loop.
-/

namespace L1Comm.Sender

open Uv

/-- The thread is between the initialisation of its locals and the end of
`thread_task`. -/
def Pc.Live (pc : Pc) : Prop := pc = .head ∨ pc = .body ∨ pc = .run ∨ pc = .exit

/-- The socket named by `conn_struct` and by the thread's local variable. -/
def State.Current (s : State) (h : Addr) : Prop :=
  s.worker.pc.Live ∧ s.worker.socket = some h ∧ s.conn.socket = some h

structure WellFormed (s : State) : Prop where
  stage_fresh : ∀ a, s.fresh ≤ a → s.loop.stage a = .uninitialised
  socket_lt : ∀ h, s.conn.socket = some h → h < s.fresh
  timer_lt : ∀ t, s.conn.timer = some t → t < s.fresh
  timer_ne_socket : ∀ t, s.conn.timer = some t → s.conn.socket ≠ some t
  timer_used : ∀ t, s.conn.timer = some t → s.loop.stage t ≠ .uninitialised
  /-- The connect request is memory of its own, never initialised as a handle. -/
  connect_plain : s.worker.pc.Live → s.worker.connect < s.fresh ∧
    s.loop.stage s.worker.connect = .uninitialised
  socket_open : s.worker.pc.Live → ∀ h, s.worker.socket = some h →
    s.conn.socket = some h ∧ s.loop.stage h = .opened
  socket_current : ∀ h, s.conn.socket = some h → s.loop.stage h = .opened → s.Current h
  connects_lt : ∀ c ∈ s.loop.connects, c.handle < s.fresh
  connects_open : ∀ c ∈ s.loop.connects, s.loop.stage c.handle = .opened →
    s.conn.socket = some c.handle
  connects_unique : ∀ c ∈ s.loop.connects, ∀ d ∈ s.loop.connects,
    c.handle = d.handle → c = d
  connected_quiet : s.conn.status = .connected →
    ∀ c ∈ s.loop.connects, s.conn.socket ≠ some c.handle
  writes_lt : ∀ c ∈ s.loop.writes, c.handle < s.fresh ∧ c.req < s.fresh
  writes_open : ∀ c ∈ s.loop.writes, s.loop.stage c.handle = .opened →
    s.conn.socket = some c.handle
  /-- A write request and its payload are memory of their own. -/
  writes_plain : ∀ c ∈ s.loop.writes, s.loop.stage c.req = .uninitialised ∧
    ∃ payload < s.fresh, s.data c.req = some payload ∧
      s.loop.stage payload = .uninitialised

/-- The write is on the current socket, and its request and payload are in
memory that has been allocated since `s`. -/
def NewWrite (s s' : State) (c : Pending) : Prop :=
  s.conn.socket = some c.handle ∧ s.fresh ≤ c.req ∧ c.req < s'.fresh ∧
    ∃ payload, s.fresh ≤ payload ∧ payload < s'.fresh ∧ s'.data c.req = some payload

theorem wellFormed_initial (host : String) (port : Int) :
    WellFormed (initial host port) := by
  constructor <;> simp [initial, Pc.Live]

namespace WellFormed

variable {s : State}

/-- Most steps initialise no handle and connect no socket; they may release
handles that are no longer open, end requests and write to the current socket. -/
theorem of_frame (h : WellFormed s) {s' : State} (hworker : s'.worker = s.worker)
    (hfresh : s.fresh ≤ s'.fresh) (hsocket : s'.conn.socket = s.conn.socket)
    (htimer : s'.conn.timer = s.conn.timer)
    (hstatus : s'.conn.status = .connected → s.conn.status = .connected)
    (hdata : ∀ a < s.fresh, s'.data a = s.data a)
    (hopen : ∀ a, s'.loop.stage a = .opened ↔ s.loop.stage a = .opened)
    (hplain : ∀ a, s'.loop.stage a = .uninitialised ↔ s.loop.stage a = .uninitialised)
    (hconnects : ∀ c ∈ s'.loop.connects, c ∈ s.loop.connects)
    (hwrites : ∀ c ∈ s'.loop.writes, c ∈ s.loop.writes ∨ NewWrite s s' c) :
    WellFormed s' := by
  constructor
  · intro a ha
    rw [hplain]
    exact h.stage_fresh a (Nat.le_trans hfresh ha)
  · intro a ha
    rw [hsocket] at ha
    exact Nat.lt_of_lt_of_le (h.socket_lt a ha) hfresh
  · intro t ht
    rw [htimer] at ht
    exact Nat.lt_of_lt_of_le (h.timer_lt t ht) hfresh
  · rw [htimer, hsocket]
    exact h.timer_ne_socket
  · intro t ht
    rw [htimer] at ht
    rw [ne_eq, hplain]
    exact h.timer_used t ht
  · rw [hworker, hplain]
    intro hlive
    obtain ⟨hlt, hstage⟩ := h.connect_plain hlive
    exact ⟨Nat.lt_of_lt_of_le hlt hfresh, hstage⟩
  · intro hlive a ha
    rw [hworker] at hlive ha
    rw [hsocket, hopen]
    exact h.socket_open hlive a ha
  · intro a ha hstage
    rw [hsocket] at ha
    rw [State.Current, hworker, hsocket]
    exact h.socket_current a ha ((hopen a).mp hstage)
  · intro c hc
    exact Nat.lt_of_lt_of_le (h.connects_lt c (hconnects c hc)) hfresh
  · intro c hc hstage
    rw [hsocket]
    exact h.connects_open c (hconnects c hc) ((hopen _).mp hstage)
  · intro c hc d hd
    exact h.connects_unique c (hconnects c hc) d (hconnects d hd)
  · intro hconnected c hc
    rw [hsocket]
    exact h.connected_quiet (hstatus hconnected) c (hconnects c hc)
  · intro c hc
    rcases hwrites c hc with hold | ⟨hcurrent, -, hreq, -⟩
    · obtain ⟨hhandle, hreq⟩ := h.writes_lt c hold
      exact ⟨Nat.lt_of_lt_of_le hhandle hfresh, Nat.lt_of_lt_of_le hreq hfresh⟩
    · exact ⟨Nat.lt_of_lt_of_le (h.socket_lt _ hcurrent) hfresh, hreq⟩
  · intro c hc hstage
    rw [hsocket]
    rcases hwrites c hc with hold | ⟨hcurrent, -⟩
    · exact h.writes_open c hold ((hopen _).mp hstage)
    · exact hcurrent
  · intro c hc
    rw [hplain]
    rcases hwrites c hc with hold | ⟨-, hreq, -, payload, hnew, hlt, hpayload⟩
    · obtain ⟨hstage, payload, hlt, hpayload, hplain'⟩ := h.writes_plain c hold
      refine ⟨hstage, payload, Nat.lt_of_lt_of_le hlt hfresh, ?_, (hplain _).mpr hplain'⟩
      rw [hdata _ (h.writes_lt c hold).2]
      exact hpayload
    · exact ⟨h.stage_fresh _ hreq, payload, hlt, hpayload,
        (hplain _).mpr (h.stage_fresh _ hnew)⟩

/-- The invariant looks at the thread through its two pointers and through
whether it is live. -/
theorem of_worker (h : WellFormed s) (w : Worker)
    (hlive : w.pc.Live ↔ s.worker.pc.Live) (hconnect : w.connect = s.worker.connect)
    (hsocket : w.socket = s.worker.socket) : WellFormed {s with worker := w} where
  __ := h
  connect_plain := by
    simp only [hlive, hconnect]
    exact h.connect_plain
  socket_open := by
    simp only [hlive, hsocket]
    exact h.socket_open
  socket_current := by
    simp only [State.Current, hlive, hsocket]
    exact h.socket_current

/-- The timer is not the connect request. -/
theorem timer_ne_connect (h : WellFormed s) (hlive : s.worker.pc.Live) {t : Addr}
    (ht : s.conn.timer = some t) : s.worker.connect ≠ t := by
  rintro rfl
  exact h.timer_used _ ht (h.connect_plain hlive).2

/-- A thread that is not live has closed its socket. -/
theorem not_opened_of_not_live (h : WellFormed s) (hdead : ¬ s.worker.pc.Live) {a : Addr}
    (ha : s.conn.socket = some a) : s.loop.stage a ≠ .opened :=
  fun hopen => hdead (h.socket_current a ha hopen).1

theorem enter (h : WellFormed s) (hstart : s.worker.pc = .start) :
    WellFormed (enter s) := by
  have hdead : ¬ s.worker.pc.Live := by simp [Pc.Live, hstart]
  have hgrows : s.fresh ≤ s.fresh + 1 := Nat.le_succ _
  constructor
  · intro a ha
    exact h.stage_fresh a (Nat.le_of_succ_le ha)
  · intro a ha
    exact Nat.lt_of_lt_of_le (h.socket_lt a ha) hgrows
  · intro t ht
    exact Nat.lt_of_lt_of_le (h.timer_lt t ht) hgrows
  · exact h.timer_ne_socket
  · exact h.timer_used
  · intro _
    exact ⟨Nat.lt_succ_self _, h.stage_fresh _ (Nat.le_refl _)⟩
  · intro _ a ha
    exact absurd ha.symm (Option.some_ne_none a)
  · intro a ha hopen
    exact absurd hopen (h.not_opened_of_not_live hdead ha)
  · intro c hc
    exact Nat.lt_of_lt_of_le (h.connects_lt c hc) hgrows
  · exact h.connects_open
  · exact h.connects_unique
  · exact h.connected_quiet
  · intro c hc
    obtain ⟨hhandle, hreq⟩ := h.writes_lt c hc
    exact ⟨Nat.lt_of_lt_of_le hhandle hgrows, Nat.lt_of_lt_of_le hreq hgrows⟩
  · exact h.writes_open
  · intro c hc
    obtain ⟨hstage, payload, hlt, hpayload⟩ := h.writes_plain c hc
    exact ⟨hstage, payload, Nat.lt_of_lt_of_le hlt hgrows, hpayload⟩

/-- `reconnect` closes the current socket, so that no socket with a request
pending stays open. -/
theorem not_opened_reconnect (h : WellFormed s) (ret : Int) {a : Addr} (hlt : a < s.fresh)
    (hcurrent : s.loop.stage a = .opened → s.conn.socket = some a) :
    (reconnect s ret).loop.stage a ≠ .opened := by
  rw [reconnect_stage, if_neg (Nat.ne_of_gt hlt)]
  split
  · simp
  · next hkept =>
    intro hopen
    obtain ⟨-, hworker, -⟩ := h.socket_current a (hcurrent hopen) hopen
    exact hkept ⟨hworker, hopen⟩

theorem plain_reconnect (ret : Int) {a : Addr} (hlt : a < s.fresh)
    (hplain : s.loop.stage a = .uninitialised) :
    (reconnect s ret).loop.stage a = .uninitialised := by
  simp [reconnect_stage, Nat.ne_of_gt hlt, hplain]

/-- The socket that `reconnect` closes is not the timer. -/
theorem reconnect_timer_stage (h : WellFormed s) (hlive : s.worker.pc.Live) (ret : Int) {t : Addr}
    (ht : s.conn.timer = some t) : (Sender.reconnect s ret).loop.stage t = s.loop.stage t := by
  have hsocket : s.worker.socket ≠ some t :=
    fun hsame => h.timer_ne_socket t ht (h.socket_open hlive t hsame).1
  simp [reconnect_stage, Nat.ne_of_gt (h.timer_lt t ht), hsocket]

/-- The socket that is replaced is closed first, so that the new one is the
only open socket; its address is new, so no pending request names it. -/
theorem reconnect (h : WellFormed s) (ret : Int) (hlive : s.worker.pc.Live) :
    WellFormed (reconnect s ret) := by
  have hgrows : s.fresh ≤ s.fresh + 1 := Nat.le_succ _
  have hclosed : ∀ c ∈ s.loop.connects, (Sender.reconnect s ret).loop.stage c.handle ≠ .opened :=
    fun c hc => h.not_opened_reconnect ret (h.connects_lt c hc) (h.connects_open c hc)
  have hnew : ∀ c ∈ s.loop.connects, c.handle ≠ s.fresh :=
    fun c hc => Nat.ne_of_lt (h.connects_lt c hc)
  constructor
  · intro a ha
    rw [reconnect_fresh] at ha
    have hplain := h.stage_fresh a (Nat.le_of_succ_le ha)
    simp [reconnect_stage, Nat.ne_of_lt ha, hplain]
  · intro a ha
    rw [reconnect_conn] at ha
    obtain rfl := Option.some.inj ha
    rw [reconnect_fresh]
    exact Nat.lt_succ_self _
  · intro t ht
    rw [reconnect_conn] at ht
    rw [reconnect_fresh]
    exact Nat.lt_of_lt_of_le (h.timer_lt t ht) hgrows
  · intro t ht hsocket
    rw [reconnect_conn] at ht hsocket
    obtain rfl := Option.some.inj hsocket
    exact Nat.lt_irrefl _ (h.timer_lt _ ht)
  · intro t ht
    rw [reconnect_conn] at ht
    rw [h.reconnect_timer_stage hlive ret ht]
    exact h.timer_used t ht
  · intro _
    obtain ⟨hlt, hplain⟩ := h.connect_plain hlive
    rw [reconnect_fresh, reconnect_worker]
    exact ⟨Nat.lt_of_lt_of_le hlt hgrows, plain_reconnect ret hlt hplain⟩
  · intro _ a ha
    rw [reconnect_worker] at ha
    obtain rfl := Option.some.inj ha
    rw [reconnect_conn, reconnect_stage, if_pos rfl]
    exact ⟨rfl, rfl⟩
  · intro a ha _
    rw [reconnect_conn] at ha
    rw [State.Current, reconnect_worker, reconnect_conn]
    exact ⟨hlive, ha, ha⟩
  · intro c hc
    rw [reconnect_fresh]
    rcases (mem_reconnect_connects s ret).mp hc with hold | ⟨-, rfl⟩
    · exact Nat.lt_of_lt_of_le (h.connects_lt c hold) hgrows
    · exact Nat.lt_succ_self _
  · intro c hc hopen
    rcases (mem_reconnect_connects s ret).mp hc with hold | ⟨-, rfl⟩
    · exact absurd hopen (hclosed c hold)
    · rw [reconnect_conn]
  · intro c hc d hd hsame
    rcases (mem_reconnect_connects s ret).mp hc with hc | ⟨-, rfl⟩
    · rcases (mem_reconnect_connects s ret).mp hd with hd | ⟨-, rfl⟩
      · exact h.connects_unique c hc d hd hsame
      · exact absurd hsame (hnew c hc)
    · rcases (mem_reconnect_connects s ret).mp hd with hd | ⟨-, rfl⟩
      · exact absurd hsame.symm (hnew d hd)
      · rfl
  · intro hconnected
    rw [reconnect_conn] at hconnected
    exact absurd hconnected (by simp)
  · intro c hc
    rw [reconnect_writes] at hc
    rw [reconnect_fresh]
    obtain ⟨hhandle, hreq⟩ := h.writes_lt c hc
    exact ⟨Nat.lt_of_lt_of_le hhandle hgrows, Nat.lt_of_lt_of_le hreq hgrows⟩
  · intro c hc hopen
    rw [reconnect_writes] at hc
    exact absurd hopen (h.not_opened_reconnect ret (h.writes_lt c hc).1 (h.writes_open c hc))
  · intro c hc
    rw [reconnect_writes] at hc
    obtain ⟨hplain, payload, hlt, hpayload, hplain'⟩ := h.writes_plain c hc
    rw [reconnect_fresh, reconnect_data]
    exact ⟨plain_reconnect ret (h.writes_lt c hc).2 hplain, payload,
      Nat.lt_of_lt_of_le hlt hgrows, hpayload, plain_reconnect ret hlt hplain'⟩

theorem body (h : WellFormed s) (ret : Int) (hbody : s.worker.pc = .body) :
    WellFormed (body s ret) := by
  have hlive : s.worker.pc.Live := by simp [Pc.Live, hbody]
  unfold Sender.body
  split
  · exact (h.reconnect ret hlive).of_worker _ (by simp [Pc.Live, hbody]) rfl rfl
  · exact h.of_worker _ (by simp [Pc.Live, hbody]) rfl rfl

theorem connectCb_failed (h : WellFormed s) (req a : Addr) {status : Int} (hstatus : status < 0) :
    WellFormed (next s (.connectCb req a status)) := by
  rw [Sender.connectCb_failed req hstatus]
  refine h.of_frame rfl (Nat.le_refl _) rfl rfl ?_ (fun _ _ => rfl) ?_ ?_ ?_ ?_
  · intro hconnected
    exact absurd hconnected (by simp)
  · exact fun _ => Iff.rfl
  · exact fun _ => Iff.rfl
  · exact fun c hc => (List.mem_filter.mp hc).1
  · exact fun c hc => .inl hc

/-- A success can only be reported for an open socket, hence for the current
one; the status becomes `connected` exactly when its connect is no longer
pending. The released timer is not the current socket. -/
theorem connectCb_connected (h : WellFormed s) {req a : Addr} {status : Int}
    (hpending : ⟨req, a⟩ ∈ s.loop.connects) (hopen : s.loop.stage a = .opened)
    (hstatus : ¬ status < 0) : WellFormed (next s (.connectCb req a status)) := by
  have hgrows : s.fresh ≤ s.fresh + 1 := Nat.le_succ _
  have hcurrent : s.conn.socket = some a := h.connects_open _ hpending hopen
  have hstage {b : Addr} (hlt : b < s.fresh) (htimer : s.conn.timer ≠ some b) :
      (next s (.connectCb req a status)).loop.stage b = s.loop.stage b := by
    simp [connectCb_stage req hstatus, Nat.ne_of_gt hlt, htimer]
  have hplain {b : Addr} (hlt : b < s.fresh) (hunused : s.loop.stage b = .uninitialised) :
      (next s (.connectCb req a status)).loop.stage b = .uninitialised := by
    simp [connectCb_stage req hstatus, Nat.ne_of_gt hlt, hunused]
  have hkept {b : Addr} (hlt : b < s.fresh)
      (hopened : (next s (.connectCb req a status)).loop.stage b = .opened) :
      s.loop.stage b = .opened := by
    rw [connectCb_stage req hstatus, if_neg (Nat.ne_of_gt hlt)] at hopened
    split at hopened
    · exact absurd hopened (by simp)
    · exact hopened
  constructor
  · intro b hb
    rw [connectCb_fresh req hstatus] at hb
    have hunused := h.stage_fresh b (Nat.le_of_succ_le hb)
    simp [connectCb_stage req hstatus, Nat.ne_of_lt hb, hunused]
  · intro b hb
    rw [connectCb_conn req hstatus] at hb
    rw [connectCb_fresh req hstatus]
    exact Nat.lt_of_lt_of_le (h.socket_lt b hb) hgrows
  · intro t ht
    rw [connectCb_conn req hstatus] at ht
    obtain rfl := Option.some.inj ht
    rw [connectCb_fresh req hstatus]
    exact Nat.lt_succ_self _
  · intro t ht hsocket
    rw [connectCb_conn req hstatus] at ht hsocket
    obtain rfl := Option.some.inj ht
    exact Nat.lt_irrefl _ (h.socket_lt _ hsocket)
  · intro t ht
    rw [connectCb_conn req hstatus] at ht
    obtain rfl := Option.some.inj ht
    rw [connectCb_stage req hstatus, if_pos rfl]
    simp
  · intro hlive
    obtain ⟨hlt, hunused⟩ := h.connect_plain hlive
    rw [connectCb_fresh req hstatus]
    exact ⟨Nat.lt_of_lt_of_le hlt hgrows, hplain hlt hunused⟩
  · intro hlive b hb
    obtain ⟨hsocket, hopened⟩ := h.socket_open hlive b hb
    have htimer : s.conn.timer ≠ some b := fun ht => h.timer_ne_socket b ht hsocket
    rw [connectCb_conn req hstatus, hstage (h.socket_lt b hsocket) htimer]
    exact ⟨hsocket, hopened⟩
  · intro b hb hopened
    rw [connectCb_conn req hstatus] at hb
    rw [State.Current, connectCb_conn req hstatus]
    exact h.socket_current b hb (hkept (h.socket_lt b hb) hopened)
  · intro c hc
    rw [connectCb_connects] at hc
    rw [connectCb_fresh req hstatus]
    exact Nat.lt_of_lt_of_le (h.connects_lt c (List.mem_filter.mp hc).1) hgrows
  · intro c hc hopened
    rw [connectCb_connects] at hc
    have hold := (List.mem_filter.mp hc).1
    rw [connectCb_conn req hstatus]
    exact h.connects_open c hold (hkept (h.connects_lt c hold) hopened)
  · intro c hc d hd
    rw [connectCb_connects] at hc hd
    exact h.connects_unique c (List.mem_filter.mp hc).1 d (List.mem_filter.mp hd).1
  · intro _ c hc hsocket
    rw [connectCb_connects] at hc
    rw [connectCb_conn req hstatus, hcurrent] at hsocket
    obtain ⟨hold, hother⟩ := List.mem_filter.mp hc
    have hsame := h.connects_unique c hold _ hpending (Option.some.inj hsocket).symm
    exact of_decide_eq_true hother hsame
  · intro c hc
    rw [connectCb_writes] at hc
    obtain ⟨hhandle, hreq⟩ := h.writes_lt c hc
    rw [connectCb_fresh req hstatus]
    exact ⟨Nat.lt_of_lt_of_le hhandle hgrows, Nat.lt_of_lt_of_le hreq hgrows⟩
  · intro c hc hopened
    rw [connectCb_writes] at hc
    rw [connectCb_conn req hstatus]
    exact h.writes_open c hc (hkept (h.writes_lt c hc).1 hopened)
  · intro c hc
    rw [connectCb_writes] at hc
    obtain ⟨hunused, payload, hlt, hpayload, hunused'⟩ := h.writes_plain c hc
    rw [connectCb_fresh req hstatus, connectCb_data req hstatus]
    exact ⟨hplain (h.writes_lt c hc).2 hunused, payload, Nat.lt_of_lt_of_le hlt hgrows, hpayload,
      hplain hlt hunused'⟩

theorem connectCb (h : WellFormed s) {req a : Addr} {status : Int}
    (henabled : Enabled s (.connectCb req a status)) :
    WellFormed (next s (.connectCb req a status)) := by
  obtain ⟨-, hpending, hreports⟩ := henabled
  by_cases hstatus : status < 0
  · exact h.connectCb_failed req a hstatus
  · exact h.connectCb_connected hpending (hreports.resolve_right hstatus) hstatus

/-- The memory released is that of a write request and its payload, which are
no handles. -/
theorem writeCb_stage (h : WellFormed s) {req a : Addr} (hpending : ⟨req, a⟩ ∈ s.loop.writes)
    (status : Int) (b : Addr) :
    (next s (.writeCb req a status)).loop.stage b = s.loop.stage b := by
  obtain ⟨hreq, payload, -, hdata, hpayload⟩ := h.writes_plain _ hpending
  exact Sender.writeCb_stage req status hdata hreq hpayload

theorem writeCb (h : WellFormed s) {req a : Addr} {status : Int}
    (henabled : Enabled s (.writeCb req a status)) :
    WellFormed (next s (.writeCb req a status)) := by
  obtain ⟨-, hpending, -⟩ := henabled
  refine h.of_frame rfl ?_ ?_ ?_ ?_ ?_ ?_ ?_ ?_ ?_
  · rw [writeCb_fresh]
  · rw [writeCb_conn]
  · rw [writeCb_conn]
  · rw [writeCb_conn]
    intro hconnected
    by_cases hstatus : status < 0
    · simp [hstatus] at hconnected
    · simpa [hstatus] using hconnected
  · intro b _
    rw [writeCb_data]
  · intro b
    rw [h.writeCb_stage hpending]
  · intro b
    rw [h.writeCb_stage hpending]
  · rw [writeCb_connects]
    exact fun c hc => hc
  · rw [writeCb_writes]
    exact fun c hc => .inl (List.mem_filter.mp hc).1

theorem timerCb (h : WellFormed s) (t : Addr) (heap : Payload) (ret : Int) :
    WellFormed (next s (.timerCb t heap ret)) := by
  refine h.of_frame rfl ?_ rfl rfl id ?_ ?_ ?_ ?_ ?_
  · exact Nat.le_add_right s.fresh 2
  · intro b hb
    exact Function.update_of_ne (Nat.ne_of_lt (Nat.lt_succ_of_lt hb)) _ _
  · intro b
    rw [timerCb_stage]
  · intro b
    rw [timerCb_stage]
  · rw [timerCb_connects]
    exact fun c hc => hc
  · intro c hc
    rcases (mem_timerCb_writes t heap ret).mp hc with hold | ⟨-, hreq, hsocket⟩
    · exact .inl hold
    · refine .inr ⟨hsocket, ?_, ?_, s.fresh, Nat.le_refl _, ?_, ?_⟩
      · rw [hreq]
        exact Nat.le_succ _
      · rw [hreq]
        exact Nat.lt_succ_self _
      · exact Nat.lt_add_of_pos_right Nat.two_pos
      · rw [hreq]
        exact Function.update_self ..

theorem closeCb (h : WellFormed s) {a : Addr} (henabled : Enabled s (.closeCb a)) :
    WellFormed (next s (.closeCb a)) := by
  have hclosing : s.loop.stage a = .closing := henabled.2.1
  refine h.of_frame rfl (Nat.le_refl _) rfl rfl id (fun _ _ => rfl) ?_ ?_ ?_ ?_
  · intro b
    rw [closeCb_stage]
    split
    · next hab => simp [← hab, hclosing]
    · exact Iff.rfl
  · intro b
    rw [closeCb_stage]
    split
    · next hab => simp [← hab, hclosing]
    · exact Iff.rfl
  · exact fun c hc => hc
  · exact fun c hc => .inl hc

/-- The end of `thread_task` comes no further than `uv_close` on the connect
request, which is no handle. -/
theorem exit (h : WellFormed s) (hexit : s.worker.pc = .exit) :
    WellFormed (exit s) := by
  have hplain := (h.connect_plain (by simp [Pc.Live, hexit])).2
  have hstage : (Sender.exit s).loop.stage = s.loop.stage := funext fun _ => exit_stage hplain
  have hworker : (Sender.exit s).worker = s.worker := by rw [exit_eq hplain]
  refine h.of_frame hworker ?_ ?_ ?_ ?_ ?_ ?_ ?_ ?_ ?_
  · rw [exit_fresh]
  · rw [exit_conn]
  · rw [exit_conn]
  · rw [exit_conn]
    exact id
  · rw [exit_data]
    exact fun _ _ => rfl
  · rw [hstage]
    exact fun _ => Iff.rfl
  · rw [hstage]
    exact fun _ => Iff.rfl
  · rw [exit_connects]
    exact fun _ hc => hc
  · rw [exit_writes]
    exact fun _ hc => .inl hc

protected theorem next (h : WellFormed s) {e : Event} (henabled : Enabled s e) :
    WellFormed (next s e) := by
  cases e with
  | start =>
      have hidle : s.worker.pc = .idle := henabled
      exact h.of_worker _ (by simp [Pc.Live, hidle]) rfl rfl
  | enter => exact h.enter henabled
  | test =>
      have hhead : s.worker.pc = .head := henabled
      refine h.of_worker _ ?_ rfl rfl
      simp only [Pc.Live, hhead]
      split <;> simp
  | body ret => exact h.body ret henabled
  | connectCb req a status => exact h.connectCb henabled
  | writeCb req a status => exact h.writeCb henabled
  | timerCb t heap ret => exact h.timerCb t heap ret
  | closeCb a => exact h.closeCb henabled
  | runEnd =>
      have hrun : s.worker.pc = .run := henabled
      exact h.of_worker _ (by simp [Pc.Live, hrun]) rfl rfl
  | exit => exact h.exit henabled
  | stopFlag => exact h.of_worker _ Iff.rfl rfl rfl
  | stopLoopClose =>
      have hcall : WellFormed
          {s with toProcess := s.toProcess.call (.loopClose (loopCloseRet s.loop))} :=
        h.of_frame rfl (Nat.le_refl _) rfl rfl id (fun _ _ => rfl) (fun _ => Iff.rfl)
          (fun _ => Iff.rfl) (fun _ hc => hc) (fun _ hc => .inl hc)
      exact hcall.of_worker _ Iff.rfl rfl rfl
  | stopJoin =>
      have hdone : s.worker.pc = .done := henabled.2
      exact h.of_worker _ (by simp [Pc.Live, hdone]) rfl rfl

theorem fate_next (h : WellFormed s) {e : Event} (henabled : Enabled s e) :
    (Sender.next s e).loop.fate = nextFate s.loop e := by
  refine Sender.fate_next s e ?_ ?_
  · rintro ret rfl a ha
    exact (h.socket_open (.inr (.inl henabled)) a ha).2
  · rintro rfl
    exact (h.connect_plain (.inr (.inr (.inr henabled)))).2

/-- No thread returns: at its end the process aborts. -/
theorem not_done_next (h : WellFormed s) (hdone : s.worker.pc ≠ .done) {e : Event}
    (henabled : Enabled s e) : (Sender.next s e).worker.pc ≠ .done := by
  cases e with
  | exit =>
      have hlive : s.worker.pc.Live := .inr (.inr (.inr henabled))
      rw [Sender.next, exit_eq (h.connect_plain hlive).2]
      exact hdone
  | test =>
      simp only [Sender.next]
      split <;> simp
  | start | enter | body | runEnd | stopJoin => simp [Sender.next, Sender.enter, Sender.body]
  | connectCb | writeCb | timerCb | closeCb | stopFlag | stopLoopClose => exact hdone

end WellFormed

section Replayed

variable {p : Process} {s : State}

theorem replayed_closeUnlessNull (h : p.Replayed) (socket : Ptr) :
    (p.closeUnlessNull socket).Replayed := by
  cases socket with
  | none => exact h
  | some a => exact h.call _

theorem replayed_dropTimer (h : p.Replayed) : p.dropTimer.Replayed := by
  unfold Process.dropTimer
  split
  · exact h
  · exact (h.call _).call _

theorem replayed_onConnect (h : p.Replayed) (status : Int) :
    (onConnect p status).Replayed := by
  unfold onConnect
  split
  · exact h
  · have hdrop := replayed_dropTimer (p := {p with conn.status := .connected}) h
    exact (hdrop.malloc.call _).call _

theorem replayed_sendHeartbeatCb (h : p.Replayed) (req : Addr) (status : Int) :
    (sendHeartbeatCb p req status).Replayed := by
  unfold sendHeartbeatCb
  split
  · exact ((h.call _).call _).call _
  · exact (h.call _).call _

theorem replayed_reconnect (h : s.Replayed) (ret : Int) : (reconnect s ret).Replayed := by
  have hclose := replayed_closeUnlessNull
    (p := {s.toProcess with conn.status := .connecting}) h s.worker.socket
  exact (hclose.malloc.call _).call _

theorem replayed_exit (h : s.Replayed) : (exit s).Replayed := by
  have hclose : (s.toProcess.call (.close (some s.worker.connect))).Replayed := h.call _
  simp only [exit]
  split_ifs
  · exact hclose
  · exact hclose.call _
  · exact replayed_dropTimer (hclose.call _)

/-- Every step changes the loop through the calls that it adds to the trace. -/
theorem replayed_next (h : s.Replayed) (e : Event) : (next s e).Replayed := by
  cases e with
  | enter => exact h.malloc
  | body ret =>
      simp only [next, body]
      split
      · exact replayed_reconnect h ret
      · exact h
  | connectCb req a status => exact replayed_onConnect (p := s.toProcess.call _) (h.call _) status
  | writeCb req a status =>
      exact replayed_sendHeartbeatCb (p := s.toProcess.call _) (h.call _) req status
  | timerCb t heap ret => exact (h.call _).malloc.malloc.call _
  | closeCb a => exact (h.call _).call _
  | exit => exact replayed_exit h
  | stopLoopClose => exact h.call _
  | start | test | runEnd | stopFlag | stopJoin => exact h

theorem loop_next (h : s.Replayed) (e : Event) :
    (next s e).loop = protocol.after s.loop (calls s e) :=
  h.loop_eq (replayed_next h e) (trace_next s e)

/-- A machine that reads the trace goes on with the calls of the step, from
the loop as the step finds it. -/
theorem runs_next {m : Machine (Loop SockAddr) Call} (hm : m.next = Loop.after)
    (h : s.Replayed) (e : Event) :
    m.Runs {} (next s e).trace ↔ m.Runs {} s.trace ∧ m.Runs s.loop (calls s e) := by
  rw [trace_next]
  exact h.runs_append hm (calls s e)

end Replayed

theorem wellFormed_run {host : String} {port : Int} {events : List Event}
    (hrun : machine.Runs (initial host port) events) :
    WellFormed (machine.after (initial host port) events) :=
  Machine.invariant (fun _ _ h henabled => h.next henabled.2)
    (wellFormed_initial host port) hrun

end L1Comm.Sender
