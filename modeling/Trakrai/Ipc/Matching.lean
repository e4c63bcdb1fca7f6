import Trakrai.Ipc.Correlation

namespace Trakrai.Ipc.Correlation
open Function List Lib

/-- No attempt that is pending and nothing that is still to be read has the id of a new attempt. -/
def FreshReading (s : State) : Action → Prop
  | .register _ reading =>
    (∀ c attempt, (s.calls c).held = some attempt → attempt.reqId ≠ reading) ∧
      ∀ g, (s.readers g).live → ∀ letter ∈ s.inFlight g, letter.id ≠ reading
  | _ => True

/-- What the ids say where every reading is fresh. -/
structure Addressed (s : State) : Prop where
  caller : ∀ {c attempt}, (s.calls c).held = some attempt →
    attempt.respCh < s.attempts ∧ s.caller attempt.respCh = c
  ids : ∀ {c d a b}, (s.calls c).held = some a → (s.calls d).held = some b → a.reqId = b.reqId → c = d
  pending : ∀ entry ∈ s.pending, ∃ c attempt, (s.calls c).held = some attempt ∧
    entry = (attempt.reqId, attempt.respCh)
  sent : ∀ {g}, ∀ letter ∈ s.inFlight g, letter.origin < s.attempts
  letters : ∀ {g c letter attempt}, (s.readers g).live → letter ∈ s.inFlight g → (s.calls c).held = some attempt →
    (letter.id = attempt.reqId ↔ letter.origin = attempt.respCh)
  holding : ∀ {g respCh letter}, s.readers g = .holding respCh letter → letter.origin = respCh
  full : ∀ {respCh letter}, s.channels respCh = .full letter → letter.origin = respCh
  returned : ∀ {c letter}, s.calls c = .returned (.response letter) →
    letter.origin < s.attempts ∧ s.caller letter.origin = c
  found : ∀ {c attempt}, (s.calls c).listening = some attempt → s.channels attempt.respCh = .open →
    (attempt.reqId, attempt.respCh) ∈ s.pending ∨ ∃ g letter, s.readers g = .holding attempt.respCh letter
  unconnected : ∀ g, s.connGeneration < g → s.readers g = .absent ∧ s.inFlight g = []
  current : ∀ {g}, s.conn = some g → g ≤ s.connGeneration

namespace Addressed
variable {s : State}

theorem newClient : Addressed .newClient where
  caller := nofun
  ids := nofun
  pending := nofun
  sent := nofun
  letters := nofun
  holding := nofun
  full := nofun
  returned := nofun
  found := nofun
  unconnected _ _ := ⟨rfl, rfl⟩
  current := nofun

theorem caller_unique (h : Addressed s) (hc : (s.calls c).held = some a) (hd : (s.calls d).held = some b)
    (hch : a.respCh = b.respCh) : c = d := by
  rw [← (h.caller hc).2, ← (h.caller hd).2, hch]

theorem setCall (h : Addressed s) (hheld : ∀ {a}, phase.held = some a → (s.calls c).held = some a)
    (hkeep : ∀ {a}, (s.calls c).held = some a → (a.reqId, a.respCh) ∈ s.pending → phase.held = some a)
    (hlisten : ∀ {a}, phase.listening = some a → (s.calls c).listening = some a)
    (hreturn : ∀ {letter}, phase = .returned (.response letter) →
      letter.origin < s.attempts ∧ s.caller letter.origin = c) : Addressed (s.setCall c phase) := by
  have hback {d a} (hd : ((s.setCall c phase).calls d).held = some a) : (s.calls d).held = some a := by
    rcases eq_or_ne d c with rfl | hne
    · rw [s.setCall_self] at hd
      exact hheld hd
    · rwa [s.setCall_of_ne hne] at hd
  exact { h with
    caller := fun hd => h.caller (hback hd)
    ids := fun hc hd => h.ids (hback hc) (hback hd)
    pending := by
      intro entry hm
      obtain ⟨d, a, hd, rfl⟩ := h.pending entry hm
      refine ⟨d, a, ?_, rfl⟩
      rcases eq_or_ne d c with rfl | hne
      · rw [s.setCall_self]
        exact hkeep hd hm
      · rwa [s.setCall_of_ne hne]
    letters := fun hg hm hd => h.letters hg hm (hback hd)
    returned := by
      intro d letter hd
      rcases eq_or_ne d c with rfl | hne
      · rw [s.setCall_self] at hd
        exact hreturn hd
      · rw [s.setCall_of_ne hne] at hd
        exact h.returned hd
    found := by
      intro d a hd hopen
      refine h.found (c := d) ?_ hopen
      rcases eq_or_ne d c with rfl | hne
      · rw [s.setCall_self] at hd
        exact hlisten hd
      · rwa [s.setCall_of_ne hne] at hd }

theorem setReader (h : Addressed s) (hg : s.readers g = old) (hold : ∀ respCh letter, old ≠ .holding respCh letter)
    (habsent : old ≠ .absent) (hreader : ∀ respCh letter, reader ≠ .holding respCh letter)
    (hlive : reader.live → old.live) : Addressed (s.setReader g reader) := by
  have hback {g' respCh letter} (hg' : (s.setReader g reader).readers g' = .holding respCh letter) :
      s.readers g' = .holding respCh letter := by
    rcases eq_or_ne g' g with rfl | hne
    · rw [s.setReader_self] at hg'
      exact (hreader _ _ hg').elim
    · rwa [s.setReader_of_ne hne] at hg'
  exact { h with
    letters := by
      intro g' c letter a hg' hm hc
      refine h.letters (g := g') ?_ hm hc
      rcases eq_or_ne g' g with rfl | hne
      · rw [s.setReader_self] at hg'
        exact hg ▸ hlive hg'
      · rwa [s.setReader_of_ne hne] at hg'
    holding := fun hg' => h.holding (hback hg')
    found := by
      intro c a hc hopen
      refine (h.found hc hopen).imp_right ?_
      rintro ⟨g', letter, hg'⟩
      refine ⟨g', letter, ?_⟩
      rwa [s.setReader_of_ne]
      rintro rfl
      exact hold _ _ (hg.symm.trans hg')
    unconnected := by
      intro g' hlt
      refine ⟨?_, (h.unconnected g' hlt).2⟩
      rw [s.setReader_of_ne]
      · exact (h.unconnected g' hlt).1
      · rintro rfl
        exact habsent (hg.symm.trans (h.unconnected g' hlt).1) }

theorem disconnect (h : Addressed s) : Addressed { s with conn := none } :=
  { h with current := nofun }

theorem fewer (h : Addressed s) (hsub : ∀ {g letter}, letter ∈ requests g ++ responses g → letter ∈ s.inFlight g) :
    Addressed { s with requests := requests, responses := responses } :=
  { h with
    sent := fun letter hm => h.sent letter (hsub hm)
    letters := fun hg hm hc => h.letters hg (hsub hm) hc
    unconnected := fun g hlt => ⟨(h.unconnected g hlt).1, eq_nil_iff_forall_not_mem.2 fun letter hm => by
      have hin := hsub hm
      rw [(h.unconnected g hlt).2] at hin
      cases hin⟩ }

theorem send (h : Addressed s) (hc : (s.calls c).held = some a) (hg : s.conn = some g) :
    Addressed (s.send g ⟨a.reqId, a.respCh⟩) := by
  have hnew {g' letter} (hm : letter ∈ (s.send g ⟨a.reqId, a.respCh⟩).inFlight g') :
      letter ∈ s.inFlight g' ∨ g' = g ∧ letter = ⟨a.reqId, a.respCh⟩ := by
    rcases eq_or_ne g' g with rfl | hne
    · simp only [State.inFlight, State.send, update_self, mem_append, mem_singleton] at hm ⊢
      tauto
    · simp only [State.inFlight, State.send, update_of_ne hne] at hm ⊢
      exact .inl hm
  exact { h with
    sent := by
      intro g' letter hm
      rcases hnew hm with hm | ⟨-, rfl⟩
      · exact h.sent letter hm
      · exact (h.caller hc).1
    letters := by
      intro g' d letter b hg' hm hd
      rcases hnew hm with hm | ⟨-, rfl⟩
      · exact h.letters hg' hm hd
      · have hsame (hcd : c = d) : a = b := by
          subst d
          exact Option.some.inj (hc.symm.trans hd)
        constructor
        · intro hid
          rw [hsame (h.ids hc hd hid)]
        · intro hch
          rw [hsame (h.caller_unique hc hd hch)]
    unconnected := by
      intro g' hlt
      refine ⟨(h.unconnected g' hlt).1, ?_⟩
      have hne : g' ≠ g := by
        rintro rfl
        exact absurd (h.current hg) (Nat.not_le.2 hlt)
      have heq : (s.send g ⟨a.reqId, a.respCh⟩).requests g' = s.requests g' := update_of_ne hne ..
      rw [State.inFlight, heq]
      exact (h.unconnected g' hlt).2 }

theorem removePending {id : Int} (h : Addressed s)
    (hother : ∀ {c a}, (s.calls c).listening = some a → a.reqId ≠ id) : Addressed (s.removePending id) :=
  { h with
    pending := fun entry hm => h.pending entry (mem_filter.1 hm).1
    found := fun hc hopen => (h.found hc hopen).imp_left fun hm => mem_filter.2 ⟨hm, by simpa using hother hc⟩ }

theorem failPending (h : Addressed s) : Addressed s.failPending := by
  have hopened {respCh channel} (hch : s.failPending.channels respCh = channel) (hne : channel ≠ .closed) :
      (∀ entry ∈ s.pending, entry.2 ≠ respCh) ∧ s.channels respCh = channel := by
    have hout : ∀ entry ∈ s.pending, entry.2 ≠ respCh := by
      rintro entry hm rfl
      exact hne (hch.symm.trans (s.failPending_closed hm))
    exact ⟨hout, (s.failPending_of_not_mem hout).symm.trans hch⟩
  exact { h with
    pending := nofun
    full := fun hch => h.full (hopened hch nofun).2
    found := by
      intro c a hc hopen
      obtain ⟨hout, hopen⟩ := hopened hopen nofun
      exact .inr ((h.found hc hopen).resolve_left fun hm => hout _ hm rfl) }

theorem take (h : Addressed s) (hg : s.readers g = .scanning) (hin : letter ∈ s.inFlight g)
    (hm : (letter.id, respCh) ∈ s.pending) :
    Addressed ((s.removePending letter.id).setReader g (.holding respCh letter)) := by
  have horigin : letter.origin = respCh := by
    obtain ⟨c, a, hc, heq⟩ := h.pending _ hm
    obtain ⟨hid, rfl⟩ := Prod.mk.inj heq
    exact (h.letters (by rw [hg]; rfl) hin hc).1 hid
  exact { h with
    pending := fun entry hm => h.pending entry (mem_filter.1 hm).1
    letters := by
      intro g' c l a hg' hin' hc
      refine h.letters (g := g') ?_ hin' hc
      rcases eq_or_ne g' g with rfl | hne
      · rw [hg]
        rfl
      · rwa [State.setReader_of_ne _ hne] at hg'
    holding := by
      intro g' ch l hg'
      rcases eq_or_ne g' g with rfl | hne
      · rw [State.setReader_self] at hg'
        cases hg'
        exact horigin
      · rw [State.setReader_of_ne _ hne] at hg'
        exact h.holding hg'
    found := by
      intro c a hc hopen
      by_cases hid : a.reqId = letter.id
      · refine .inr ⟨g, letter, ?_⟩
        rw [State.setReader_self, ← horigin,
          (h.letters (by rw [hg]; rfl) hin (Phase.held_of_listening hc)).1 hid.symm]
      · refine (h.found hc hopen).imp ?_ ?_
        · exact fun hm => mem_filter.2 ⟨hm, by simpa using hid⟩
        · rintro ⟨g', l, hg'⟩
          refine ⟨g', l, ?_⟩
          rw [State.setReader_of_ne]
          · exact hg'
          · rintro rfl
            rw [hg] at hg'
            cases hg'
    unconnected := by
      intro g' hlt
      refine ⟨?_, (h.unconnected g' hlt).2⟩
      rw [State.setReader_of_ne]
      · exact (h.unconnected g' hlt).1
      · rintro rfl
        rw [(h.unconnected _ hlt).1] at hg
        cases hg }

theorem deliver (h : Addressed s) (hg : s.readers g = .holding respCh letter)
    (hone : ∀ {g' letter'}, s.readers g' = .holding respCh letter' → g' = g) :
    Addressed ((s.deliver respCh letter).setReader g .scanning) := by
  have hother {ch} (hch : ch ≠ respCh) : (s.deliver respCh letter).channels ch = s.channels ch :=
    update_of_ne hch ..
  have hself : (s.deliver respCh letter).channels respCh = .full letter := update_self ..
  exact { h with
    letters := by
      intro g' c l a hg' hm hc
      refine h.letters (g := g') ?_ hm hc
      rcases eq_or_ne g' g with rfl | hne
      · rw [hg]
        rfl
      · rwa [State.setReader_of_ne _ hne] at hg'
    holding := by
      intro g' ch l hg'
      rcases eq_or_ne g' g with rfl | hne
      · rw [State.setReader_self] at hg'
        cases hg'
      · rw [State.setReader_of_ne _ hne] at hg'
        exact h.holding hg'
    full := by
      intro ch l hch
      change (s.deliver respCh letter).channels ch = .full l at hch
      rcases eq_or_ne ch respCh with rfl | hne
      · rw [hself] at hch
        cases hch
        exact h.holding hg
      · rw [hother hne] at hch
        exact h.full hch
    found := by
      intro c a hc hopen
      change (s.deliver respCh letter).channels a.respCh = .open at hopen
      have hne : a.respCh ≠ respCh := by
        intro heq
        rw [heq, hself] at hopen
        cases hopen
      rw [hother hne] at hopen
      refine (h.found hc hopen).imp_right ?_
      rintro ⟨g', l, hg'⟩
      refine ⟨g', l, ?_⟩
      rw [State.setReader_of_ne]
      · exact hg'
      · rintro rfl
        rw [hg] at hg'
        exact hne (Reader.holding.inj hg').1.symm
    unconnected := by
      intro g' hlt
      refine ⟨?_, (h.unconnected g' hlt).2⟩
      rw [State.setReader_of_ne]
      · exact (h.unconnected g' hlt).1
      · rintro rfl
        rw [(h.unconnected _ hlt).1] at hg
        cases hg }

theorem activateConnection (h : Addressed s) : Addressed s.activateConnection := by
  obtain ⟨habsent, hnone⟩ := h.unconnected (s.connGeneration + 1) (Nat.lt_succ_self _)
  have hback {g reader} (hg : s.activateConnection.readers g = reader) :
      g = s.connGeneration + 1 ∧ reader = .scanning ∨ g ≠ s.connGeneration + 1 ∧ s.readers g = reader := by
    rcases eq_or_ne g (s.connGeneration + 1) with rfl | hne
    · exact .inl ⟨rfl, hg.symm.trans (update_self ..)⟩
    · exact .inr ⟨hne, (update_of_ne hne ..).symm.trans hg⟩
  exact { h with
    letters := by
      intro g c letter a hg hm hc
      obtain ⟨rfl, -⟩ | ⟨-, heq⟩ := hback (g := g) rfl
      · change letter ∈ s.inFlight (s.connGeneration + 1) at hm
        rw [hnone] at hm
        cases hm
      · exact h.letters (heq ▸ hg) hm hc
    holding := by
      intro g respCh letter hg
      obtain ⟨-, hcontra⟩ | ⟨-, hg⟩ := hback hg
      · cases hcontra
      · exact h.holding hg
    found := by
      intro c a hc hopen
      refine (h.found hc hopen).imp_right ?_
      rintro ⟨g, letter, hg⟩
      refine ⟨g, letter, (update_of_ne ?_ ..).trans hg⟩
      rintro rfl
      rw [habsent] at hg
      cases hg
    unconnected := by
      intro g hlt
      have hlt' : s.connGeneration + 1 < g := hlt
      obtain ⟨hold, hempty⟩ := h.unconnected g (Nat.lt_of_succ_lt hlt')
      exact ⟨(update_of_ne (Nat.ne_of_gt hlt') ..).trans hold, hempty⟩
    current := by
      intro g hg
      cases hg
      exact Nat.le_refl _ }

theorem register (h : Addressed s) (hfresh : FreshReading s (.register c reading)) (hc : (s.calls c).held = none) :
    Addressed ((s.register c reading).setCall c (.registered left ⟨g, reading, s.attempts⟩)) := by
  obtain ⟨hheld, hletters⟩ := hfresh
  have hback {d a} (hd : (((s.register c reading).setCall c
      (.registered left ⟨g, reading, s.attempts⟩)).calls d).held = some a) :
      d = c ∧ a = ⟨g, reading, s.attempts⟩ ∨ d ≠ c ∧ (s.calls d).held = some a := by
    rcases eq_or_ne d c with rfl | hne
    · rw [State.setCall_self] at hd
      exact .inl ⟨rfl, (Option.some.inj hd).symm⟩
    · rw [State.setCall_of_ne _ hne] at hd
      exact .inr ⟨hne, hd⟩
  have hcaller {respCh} (hlt : respCh < s.attempts) : (s.register c reading).caller respCh = s.caller respCh :=
    update_of_ne (Nat.ne_of_lt hlt) ..
  have hstays {entry} (hm : entry ∈ s.pending) : entry ∈ (s.register c reading).pending := by
    obtain ⟨d, b, hd, rfl⟩ := h.pending entry hm
    exact mem_append_left _ (mem_filter.2 ⟨hm, by simpa using hheld d b hd⟩)
  exact { h with
    caller := by
      intro d a hd
      obtain ⟨rfl, rfl⟩ | ⟨-, hd⟩ := hback hd
      · exact ⟨Nat.lt_succ_self _, update_self ..⟩
      · obtain ⟨hlt, hcall⟩ := h.caller hd
        exact ⟨Nat.lt_succ_of_lt hlt, (hcaller hlt).trans hcall⟩
    ids := by
      intro d e a b hd₀ he₀ hid
      obtain ⟨rfl, rfl⟩ | ⟨-, hd⟩ := hback hd₀ <;> obtain ⟨rfl, rfl⟩ | ⟨-, he⟩ := hback he₀
      · rfl
      · exact (hheld e b he hid.symm).elim
      · exact (hheld d a hd hid).elim
      · exact h.ids hd he hid
    pending := by
      intro entry hm
      rcases mem_append.1 hm with hm | hm
      · obtain ⟨d, a, hd, rfl⟩ := h.pending entry (mem_filter.1 hm).1
        refine ⟨d, a, ?_, rfl⟩
        rw [State.setCall_of_ne]
        · exact hd
        · rintro rfl
          rw [hc] at hd
          cases hd
      · refine ⟨c, ⟨g, reading, s.attempts⟩, ?_, mem_singleton.1 hm⟩
        rw [State.setCall_self]
        rfl
    sent := fun letter hm => Nat.lt_succ_of_lt (h.sent letter hm)
    letters := by
      intro g' d letter a hg' hm hd
      obtain ⟨rfl, rfl⟩ | ⟨-, hd⟩ := hback hd
      · constructor
        · intro hid
          exact (hletters g' hg' letter hm hid).elim
        · intro horigin
          exact absurd (h.sent letter hm) (by rw [horigin]; exact Nat.lt_irrefl _)
      · exact h.letters hg' hm hd
    returned := by
      intro d letter hd
      have hne : d ≠ c := by
        rintro rfl
        rw [State.setCall_self] at hd
        cases hd
      rw [State.setCall_of_ne _ hne] at hd
      obtain ⟨hlt, hcall⟩ := h.returned hd
      exact ⟨Nat.lt_succ_of_lt hlt, (hcaller hlt).trans hcall⟩
    found := by
      intro d a hd hopen
      rcases eq_or_ne d c with rfl | hne
      · rw [State.setCall_self] at hd
        cases hd
        exact .inl (mem_append_right _ (mem_singleton_self _))
      · rw [State.setCall_of_ne _ hne] at hd
        exact (h.found hd hopen).imp_left hstays }

theorem setCall_failed {left : Nat} {failure : Failure} (h : Addressed s)
    (hgone : ∀ {a}, (s.calls c).held = some a → (a.reqId, a.respCh) ∉ s.pending) :
    Addressed (s.setCall c (.failed left failure)) :=
  h.setCall nofun (fun ha hm => (hgone ha hm).elim) nofun nofun

theorem setCall_marked {left : Nat} (h : Addressed s) (hphase : s.calls c = .marking left a writing ∨
      s.calls c = .failing left a writing) :
    Addressed (s.setCall c (if writing then .removing left a .disconnected else .failed left .disconnected)) := by
  cases writing with
  | true =>
    have hheld : (s.calls c).held = some a := by
      rcases hphase with h | h <;> rw [h] <;> rfl
    exact h.setCall (fun ha => hheld.trans ha) (fun ha _ => hheld.symm.trans ha) nofun nofun
  | false =>
    have hheld : (s.calls c).held = none := by
      rcases hphase with h | h <;> rw [h] <;> rfl
    refine h.setCall_failed fun ha => ?_
    rw [hheld] at ha
    cases ha

theorem giveUp (h : Addressed s) (hheld : (s.calls c).held = some a)
    (hlisten : (s.calls c).listening = none) (hphase : phase.held = none)
    (hreturn : ∀ letter, phase ≠ .returned (.response letter)) :
    Addressed ((s.removePending a.reqId).setCall c phase) := by
  have hother {d b} (hd : (s.calls d).listening = some b) : b.reqId ≠ a.reqId := by
    intro hid
    cases h.ids (Phase.held_of_listening hd) hheld hid
    rw [hlisten] at hd
    cases hd
  have hnone {b} (hb : phase.held = some b) : False := by
    rw [hphase] at hb
    cases hb
  refine (h.removePending hother).setCall (fun hb => (hnone hb).elim) ?_
    (fun hb => (hnone (Phase.held_of_listening hb)).elim) fun hb => (hreturn _ hb).elim
  intro b hb hm
  cases hheld.symm.trans hb
  simpa using (mem_filter.1 hm).2

theorem callStep {phase : Phase} (h : Addressed s) (hw : Wired s) (hphase : s.calls c = phase)
    (hcaller : action.caller = some c) (hstep : CallStep s action phase phase' s') (hfresh : FreshReading s action) :
    Addressed (s'.setCall c phase') := by
  have hheld {a} (ha : (s.calls c).held = some a) : phase.held = some a := hphase ▸ ha
  have hback {a} (ha : phase.held = some a) : (s.calls c).held = some a := hphase ▸ ha
  have hlisten {a} (ha : phase.listening = some a) : (s.calls c).listening = some a := hphase ▸ ha
  have hopen {a} (ha : (s.calls c).held = some a) (hm : (a.reqId, a.respCh) ∈ s.pending) :
      ∃ b, phase.held = some b ∧ s.channels b.respCh = .open :=
    ⟨a, hheld ha, (hw.pending_open _ hm).1⟩
  cases hstep with
  | request | connect => exact h.setCall nofun (fun ha => nomatch hheld ha) nofun nofun
  | noConnection => exact h.setCall_failed fun ha => nomatch hheld ha
  | register =>
    cases hcaller
    exact h.register hfresh (by rw [hphase]; rfl)
  | write hconn => exact (h.send (hback rfl) hconn).setCall hback (fun ha _ => hheld ha) hlisten nofun
  | writeFailed hconn => exact (h.send (hback rfl) hconn).setCall hback (fun ha _ => hheld ha) nofun nofun
  | writeRefused | notCurrent | timeout | clientClosed => exact h.setCall hback (fun ha _ => hheld ha) nofun nofun
  | receive hfull =>
    refine h.setCall nofun ?_ nofun ?_
    · intro a ha hm
      obtain ⟨b, hb, hchannel⟩ := hopen ha hm
      cases hb
      rw [hfull] at hchannel
      cases hchannel
    · intro letter hl
      cases hl
      rw [h.full hfull]
      exact h.caller (hback rfl)
  | channelClosed hclosed =>
    refine h.setCall_failed fun ha hm => ?_
    obtain ⟨b, hb, hchannel⟩ := hopen ha hm
    cases hb
    rw [hclosed] at hchannel
    cases hchannel
  | removeTimedOut | remove => exact h.giveUp (hback rfl) (by rw [hphase]; rfl) rfl nofun
  | @mark _ left a writing =>
    have hsame : Phase.held (.failing left a writing) = Phase.held (.marking left a writing) := by
      cases writing <;> rfl
    exact h.disconnect.setCall (fun ha => hback (hsame ▸ ha)) (fun ha _ => hsame ▸ hheld ha) nofun nofun
  | marked => exact h.setCall_marked (.inl hphase)
  | failPending => exact h.failPending.setCall_marked (.inr hphase)
  | again | ended => exact h.setCall nofun (fun ha => nomatch hheld ha) nofun nofun

theorem next (h : Addressed s) (hnext : s.responses g = letter :: rest) :
    Addressed { s with responses := update s.responses g rest } := by
  refine h.fewer fun {g' l} hm => ?_
  rcases eq_or_ne g' g with rfl | hne
  · rw [update_self] at hm
    rw [State.inFlight, hnext]
    rcases mem_append.1 hm with hm | hm
    · exact mem_append_left _ hm
    · exact mem_append_right _ (mem_cons_of_mem _ hm)
  · rwa [update_of_ne hne] at hm

theorem answer (h : Addressed s) (hrequest : letter ∈ s.requests g) : Addressed (s.answer g letter) := by
  refine h.fewer fun {g' l} hm => ?_
  rcases eq_or_ne g' g with rfl | hne
  · rw [update_self, update_self] at hm
    rcases mem_append.1 hm with hm | hm
    · exact mem_append_left _ (mem_of_mem_erase hm)
    · rcases mem_append.1 hm with hm | hm
      · exact mem_append_right _ hm
      · rw [mem_singleton.1 hm]
        exact mem_append_left _ hrequest
  · rwa [update_of_ne hne, update_of_ne hne] at hm

theorem otherStep (h : Addressed s) (hw : Wired s) (hstep : OtherStep s action s') : Addressed s' := by
  cases hstep with
  | drop hg hnext hid =>
    rw [s.removePending_of_lookup hid]
    exact h.next hnext
  | take hg hnext hid =>
    have hin : _ ∈ s.inFlight _ := mem_append_right _ (hnext ▸ mem_cons_self ..)
    exact (h.take hg hin (mem_of_lookup hid)).next hnext
  | deliver hg => exact h.deliver hg fun hg' => hw.holding_one hg' hg
  | readEnded hg => exact h.setReader hg nofun nofun nofun nofun
  | readerMark hg => exact h.disconnect.setReader hg nofun nofun nofun nofun
  | readerMarked hg => exact h.setReader hg nofun nofun nofun nofun
  | readerFail hg => exact h.failPending.setReader hg nofun nofun nofun nofun
  | activateConnection => exact h.activateConnection
  | answer hrequest => exact h.answer hrequest
  | close => exact { h with }
  | clear => exact { h.disconnect with }
  | closeFail => exact { h.failPending with }

theorem step (h : Addressed s) (hw : Wired s) (hstep : Correlation.step s action = some s')
    (hfresh : FreshReading s action) : Addressed s' := by
  obtain ⟨c, phase', s'', hcaller, hcall, rfl⟩ | ⟨-, hother⟩ := step_cases hstep
  · exact h.callStep hw rfl hcaller hcall hfresh
  · exact h.otherStep hw hother

end Addressed

/-- How many steps a call can still take, in its attempts to come as well. -/
def Phase.rank : Phase → Nat
  | .idle | .returned _ => 0
  | .failed left _ => 10 * left + 1
  | .removing left _ _ => 10 * left + 2
  | .failing left _ _ => 10 * left + 3
  | .marking left _ _ => 10 * left + 4
  | .timedOut left _ => 10 * left + 5
  | .select left _ => 10 * left + 6
  | .registered left _ => 10 * left + 7
  | .connected left _ => 10 * left + 8
  | .waitForConnection left => 10 * left + 9

theorem CallStep.rank_lt (h : CallStep s action phase phase' s') (hstarted : phase ≠ .idle) :
    phase'.rank < phase.rank ∧ phase' ≠ .idle := by
  cases h with
  | request => exact (hstarted rfl).elim
  | @again left _ _ h =>
    refine ⟨?_, nofun⟩
    simp only [Phase.rank]
    omega
  | @marked _ left attempt writing | @failPending _ left attempt writing =>
    cases writing <;> exact ⟨by simp [Phase.rank], nofun⟩
  | _ => exact ⟨by simp [Phase.rank], nofun⟩

theorem CallStep.not_returned (h : CallStep s action phase phase' s') (result : Result) : phase ≠ .returned result := by
  rintro rfl
  cases h

theorem OtherStep.calls_eq (h : OtherStep s action s') : s'.calls = s.calls := by
  cases h <;> rfl

theorem CallStep.calls_eq (h : CallStep s action phase phase' s') : s'.calls = s.calls := by
  cases h <;> rfl

/-- The steps that a call takes on a run. -/
def ownSteps (c : Nat) (tr : List (State × Action)) : Nat := (tr.filter (·.2.caller = some c)).length

theorem run_ends (hrun : system.Run s tr t) (hstarted : s.calls c ≠ .idle) :
    ownSteps c tr + (t.calls c).rank ≤ (s.calls c).rank ∧
      ∀ result, s.calls c = .returned result → t.calls c = .returned result := by
  induction hrun with
  | nil => exact ⟨by simp [ownSteps], fun _ h => h⟩
  | @cons s action m tr t hstep hrun ih =>
    obtain ⟨d, phase', s'', hcaller, hcall, rfl⟩ | ⟨hnone, hother⟩ := step_cases hstep.2
    · rcases eq_or_ne c d with rfl | hne
      · obtain ⟨hlt, hstarted'⟩ := hcall.rank_lt hstarted
        obtain ⟨hle, -⟩ := ih (by rwa [State.setCall_self])
        rw [State.setCall_self] at hle
        refine ⟨?_, fun result h => (hcall.not_returned result h).elim⟩
        simp only [ownSteps, filter_cons, hcaller, decide_true, if_true, length_cons] at hle ⊢
        omega
      · have hsame : (s''.setCall d phase').calls c = s.calls c := by
          rw [State.setCall_of_ne _ hne, hcall.calls_eq]
        obtain ⟨hle, hstands⟩ := ih (by rwa [hsame])
        rw [hsame] at hle hstands
        refine ⟨?_, hstands⟩
        have hskip : (action.caller = some c) = False := by simp [hcaller, hne.symm]
        simp only [ownSteps, filter_cons, hskip, decide_false, Bool.false_eq_true, if_false] at hle ⊢
        exact hle
    · have hsame : m.calls c = s.calls c := by rw [hother.calls_eq]
      obtain ⟨hle, hstands⟩ := ih (by rwa [hsame])
      rw [hsame] at hle hstands
      refine ⟨?_, hstands⟩
      simp only [ownSteps, filter_cons, hnone, reduceCtorEq, decide_false, Bool.false_eq_true,
        if_false] at hle ⊢
      exact hle

theorem exists_own_step (hstarted : s.calls c ≠ .idle) (hreturned : ∀ result, s.calls c ≠ .returned result) :
    ∃ action t, action.caller = some c ∧ system.step s action t := by
  have hgo (action : Action) (hcaller : action.caller = some c)
      (h : (callStep s action (s.calls c)).isSome = true) : ∃ action t, action.caller = some c ∧ system.step s action t := by
    obtain ⟨⟨phase, s'⟩, hstep⟩ := Option.isSome_iff_exists.1 h
    refine ⟨action, s'.setCall c phase, hcaller, trivial, ?_⟩
    rw [step, hcaller]
    simp only [hstep, Option.map_some]
  cases hphase : s.calls c with
  | idle => exact (hstarted hphase).elim
  | waitForConnection left => exact hgo (.noConnection c .disconnected) rfl (by rw [hphase]; rfl)
  | connected left g => exact hgo (.register c 0) rfl (by rw [hphase]; rfl)
  | registered left attempt =>
    cases hcurrent : s.isCurrent attempt.generation with
    | true => exact hgo (.write c) rfl (by simp [hphase, callStep, hcurrent])
    | false => exact hgo (.notCurrent c) rfl (by simp [hphase, callStep, hcurrent])
  | select left attempt => exact hgo (.timeout c) rfl (by rw [hphase]; rfl)
  | timedOut left attempt => exact hgo (.removePending c) rfl (by rw [hphase]; rfl)
  | marking left attempt writing =>
    refine hgo (.mark c) rfl ?_
    rw [hphase, callStep]
    split <;> rfl
  | failing left attempt writing => exact hgo (.failPending c) rfl (by rw [hphase]; rfl)
  | removing left attempt failure => exact hgo (.removePending c) rfl (by rw [hphase]; rfl)
  | failed left failure =>
    refine hgo (.next c) rfl ?_
    rw [hphase, callStep]
    split <;> rfl
  | returned result => exact (hreturned result hphase).elim

/-- No two pending requests share an id, and each response goes to the request that it answers. -/
structure Correlated (s : State) : Prop where
  ids : ∀ {c d a b}, (s.calls c).held = some a → (s.calls d).held = some b → a.reqId = b.reqId → c = d
  caller : ∀ {c attempt}, (s.calls c).held = some attempt → s.caller attempt.respCh = c
  returned : ∀ {c letter}, s.calls c = .returned (.response letter) → s.caller letter.origin = c
  delivered : ∀ {respCh letter}, s.channels respCh = .full letter → letter.origin = respCh
  /-- The response to a request that waits for it will find the channel of the request. -/
  awaited : ∀ {c attempt}, (s.calls c).listening = some attempt → s.channels attempt.respCh = .open →
    s.pending.lookup attempt.reqId = some attempt.respCh ∨
      ∃ g letter, s.readers g = .holding attempt.respCh letter ∧ letter.origin = attempt.respCh
  answers : ∀ {g c letter attempt}, (s.calls c).listening = some attempt → (s.readers g).live →
    letter ∈ s.responses g → (letter.id = attempt.reqId ↔ letter.origin = attempt.respCh)

theorem Addressed.correlated (h : Addressed s) (hw : Wired s) : Correlated s where
  ids := h.ids
  caller := fun hc => (h.caller hc).2
  returned := fun hc => (h.returned hc).2
  delivered := h.full
  awaited := fun hc hopen => (h.found hc hopen).imp (lookup_of_mem hw.ids)
    fun ⟨g, letter, hg⟩ => ⟨g, letter, hg, h.holding hg⟩
  answers := fun hc hg hm => h.letters hg (mem_append_right _ hm) (Phase.held_of_listening hc)

theorem wired_states (hinit : system.init s₀) (hrun : system.Run s₀ tr s) : ∀ u ∈ states tr s, Wired u := by
  refine hrun.forall_states ?_ fun p _ hw u hstep => hw.step hstep.2
  rw [show s₀ = .newClient from hinit]
  exact .newClient

theorem addressed_states (hinit : system.init s₀) (hrun : system.Run s₀ tr s)
    (hfresh : ∀ p ∈ tr, FreshReading p.1 p.2) : ∀ u ∈ states tr s, Addressed u := by
  have hw := wired_states hinit hrun
  refine hrun.forall_states ?_ fun p hp h u hstep => h.step (hw _ (mem_states_of_mem hp)) hstep.2 (hfresh p hp)
  rw [show s₀ = .newClient from hinit]
  exact .newClient

/-- No step of a run writes to a closed channel or closes one twice. Each call that has been made has a bounded
number of steps left and one of them to take until it returns, which it does once. Where no attempt takes an id
that is still in use, each response goes to the request that it answers. -/
theorem requests_correlated (hinit : system.init s₀) (hrun : system.Run s₀ tr s) :
    (∀ u ∈ states tr s, u.panicked = false) ∧
      (∀ {u mid v c}, system.Run u mid v → u.calls c ≠ .idle →
        ownSteps c mid + (v.calls c).rank ≤ (u.calls c).rank ∧
          ∀ result, u.calls c = .returned result → v.calls c = .returned result) ∧
      (∀ u ∈ states tr s, ∀ c, u.calls c ≠ .idle → (∀ result, u.calls c ≠ .returned result) →
        ∃ action v, action.caller = some c ∧ system.step u action v) ∧
      ((∀ p ∈ tr, FreshReading p.1 p.2) → ∀ u ∈ states tr s, Correlated u) := by
  refine ⟨?_, run_ends, fun u _ c => exists_own_step, ?_⟩
  · intro u hu
    exact (wired_states hinit hrun u hu).calm
  · intro hfresh u hu
    exact (addressed_states hinit hrun hfresh u hu).correlated (wired_states hinit hrun u hu)

def opening : List Action := [.activateConnection, .request 0 2, .connect 0]

def answered : List Action := [.write 0, .answer 1 ⟨1000, 0⟩, .read 1, .deliver 1, .receive 0]

def played (s : State) (actions : List Action) : List (State × Action) × State := (play step s actions).getD ([], s)

theorem run_played (h : (play step s actions).isSome = true) :
    system.Run s (played s actions).1 (played s actions).2 :=
  System.run_play (play_eq_getD h) (fun _ _ => trivial)

theorem fresh_played (h : (play step s actions).isSome = true)
    (hactions : ∀ action ∈ actions, ∀ c reading, action ≠ .register c reading) :
    ∀ p ∈ (played s actions).1, FreshReading p.1 p.2 := by
  intro p hp
  have hm : p.2 ∈ actions := by
    rw [← play_labels (play_eq_getD h)]
    exact mem_map_of_mem hp
  unfold FreshReading
  split
  · rename_i c reading heq
    exact (hactions _ hm c reading heq).elim
  · trivial

theorem fresh_opening : FreshReading (played .newClient opening).2 (.register 0 1000) := by
  have hcalls (c : Nat) : ((played .newClient opening).2.calls c).held = none := by
    rcases eq_or_ne c 0 with rfl | hne
    · rfl
    · simp [played, opening, play, step, callStep, otherStep, Action.caller, State.activateConnection, State.setCall,
        State.newClient, hne, Phase.held]
  refine ⟨fun c attempt hc => ?_, fun g _ letter hm => ?_⟩
  · rw [hcalls] at hc
    cases hc
  · cases hm

theorem requests_correlated_answered : ∃ tr s, system.Run .newClient tr s ∧ Correlated s ∧
    s.calls 0 = .returned (.response ⟨1000, 0⟩) := by
  have hopening : (play step .newClient opening).isSome = true := by decide +kernel
  have hregister : (play step (played .newClient opening).2 [.register 0 1000]).isSome = true := by decide +kernel
  have hanswered : (play step (played (played .newClient opening).2 [.register 0 1000]).2 answered).isSome = true := by
    decide +kernel
  have hrun := ((run_played hopening).append (run_played hregister)).append (run_played hanswered)
  have hcorrelated := (requests_correlated rfl hrun).2.2.2
  refine ⟨_, _, hrun, hcorrelated ?_ _ (end_mem_states _ _), by decide +kernel⟩
  intro p hp
  rcases mem_append.1 hp with hp | hp
  · rcases mem_append.1 hp with hp | hp
    · exact fresh_played hopening (by simp [opening]) p hp
    · rw [mem_singleton.1 hp]
      exact fresh_opening
  · exact fresh_played hanswered (by simp [answered]) p hp

def sameReading : List Action :=
  [.activateConnection, .request 0 2, .request 1 2, .connect 0, .connect 1, .register 0 1000, .register 1 1000,
    .write 0, .write 1, .answer 1 ⟨1000, 0⟩, .read 1, .deliver 1, .receive 1]

/-- The second call gets the response to the first. -/
theorem response_of_other_request : ∃ tr s, system.Run .newClient tr s ∧
    s.calls 1 = .returned (.response ⟨1000, 0⟩) ∧ s.caller 0 = 0 ∧ ¬ Correlated s := by
  have hplay : (play step .newClient sameReading).isSome = true := by decide +kernel
  have hreturned : (played .newClient sameReading).2.calls 1 = .returned (.response ⟨1000, 0⟩) := by decide +kernel
  have hcaller : (played .newClient sameReading).2.caller 0 = 0 := by decide +kernel
  refine ⟨_, _, run_played hplay, hreturned, hcaller, fun h => ?_⟩
  exact absurd (hcaller.symm.trans (h.returned hreturned)) (by decide)

end Trakrai.Ipc.Correlation
