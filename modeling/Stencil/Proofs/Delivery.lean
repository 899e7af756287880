import Stencil.Proofs.ByteOrder
import Stencil.Proofs.SessionEffects

/-!
# Delivery

Only a fill that succeeds gives its text to a sink. One that fails leaves the sink as it was,
whatever was filled before the failure. A stream may take the bytes of a text in pieces of any size,
and is called until there are none left or until it takes none. The outcome is the same for all
pieces, and is that of one write.
-/
namespace Stencil

theorem Text.toByteArray_ofList (t : Text) :
    (String.ofList t).toByteArray = t.utf8.toByteArray :=
  String.toByteArray_ofList

theorem Text.length_utf8_eq_zero {t : Text} : t.utf8.length = 0 ↔ t = [] := by
  cases t with
  | nil => simp
  | cons c t =>
    have hpos : 0 < (String.utf8EncodeChar c).length := List.length_pos_of_ne_nil
      String.utf8EncodeChar_ne_nil
    simp only [utf8_cons, List.length_append, reduceCtorEq, iff_false]
    omega

namespace Sink

/-! ### Calls of a stream -/

/-- One call of a stream with bytes. It takes so many of them, from the first on, and leaves the
others for another call. A stream that is full takes none. -/
inductive Takes (bytes : List UInt8) : Sink → Nat → Sink → Prop
  | unlimited {held : ByteArray} {n : Nat} : 0 < n → n ≤ bytes.length →
    Takes bytes ⟨.unlimited, held⟩ n ⟨.unlimited, held ++ (bytes.take n).toByteArray⟩
  | limited {held : ByteArray} {room n : Nat} : 0 < n → n ≤ bytes.length → n ≤ room →
    Takes bytes ⟨.limited room, held⟩ n
      ⟨.limited (room - n), held ++ (bytes.take n).toByteArray⟩
  | full {held : ByteArray} : Takes bytes ⟨.limited 0, held⟩ 0 ⟨.limited 0, held⟩

/-- Calls of a stream until all bytes are written, or until a call fails or takes none of them. Each
call may take only some of the bytes. -/
inductive WritesAll : Sink → List UInt8 → Sink × Option TransferFault → Prop
  | done {sink : Sink} : WritesAll sink [] (sink, none)
  | more {sink next : Sink} {bytes : List UInt8} {n : Nat}
      {outcome : Sink × Option TransferFault} : bytes ≠ [] → sink.Takes bytes n next → n ≠ 0 →
    WritesAll next (bytes.drop n) outcome → WritesAll sink bytes outcome
  | zero {sink next : Sink} {bytes : List UInt8} : bytes ≠ [] → sink.Takes bytes 0 next →
    WritesAll sink bytes (next, some .writeZero)
  | broken {held : ByteArray} {bytes : List UInt8} : bytes ≠ [] →
    WritesAll ⟨.brokenStream, held⟩ bytes (⟨.brokenStream, held⟩, some .brokenPipe)

/-- What becomes of a sink that is given bytes, without saying in how many calls. -/
def writeBytes (sink : Sink) (bytes : List UInt8) : Sink × Option TransferFault :=
  match sink.kind with
  | .unlimited => ({ sink with held := sink.held ++ bytes.toByteArray }, none)
  | .limited room =>
    (⟨.limited (room - bytes.length), sink.held ++ (bytes.take room).toByteArray⟩,
      if bytes.length ≤ room then none else some .writeZero)
  | .brokenStream => (sink, if bytes.length = 0 then none else some .brokenPipe)
  | .brokenFormatter => (sink, some .other)

variable {sink next : Sink} {bytes : List UInt8} {n : Nat}
  {outcome : Sink × Option TransferFault}

/-- Writing a text is writing the bytes of its form, and so the calls of a stream can be compared
with it. -/
theorem write_eq (sink : Sink) (text : Text) : sink.write text = sink.writeBytes text.utf8 := by
  unfold write writeBytes
  rw [Text.toByteArray_ofList]
  cases sink.kind with
  | unlimited => rfl
  | brokenFormatter => rfl
  | brokenStream =>
    simp only [Text.length_utf8_eq_zero, List.isEmpty_iff]
  | limited room =>
    have htaken : text.utf8.toByteArray.extract 0 room = (text.utf8.take room).toByteArray := by
      apply ByteArray.ext
      simp
    simp only [htaken, List.size_toByteArray]

/-- A call leaves what it takes out of account: the outcome for the rest is that for all of it. -/
theorem Takes.writeBytes_drop (h : sink.Takes bytes n next) (hn : n ≠ 0) :
    next.writeBytes (bytes.drop n) = sink.writeBytes bytes := by
  cases h with
  | full => exact absurd rfl hn
  | unlimited _ _ =>
    simp only [writeBytes, ByteArray.append_assoc, ← List.toByteArray_append,
      List.take_append_drop]
  | @limited held room _ _ hlength hroom =>
    have htaken : bytes.take n ++ (bytes.drop n).take (room - n) = bytes.take room := by
      rw [← List.take_add, Nat.add_sub_cancel' hroom]
    have hleft : room - n - (bytes.length - n) = room - bytes.length := by omega
    have hfits : bytes.length - n ≤ room - n ↔ bytes.length ≤ room := by omega
    simp only [writeBytes, ByteArray.append_assoc, ← List.toByteArray_append, List.length_drop,
      htaken, hleft, hfits]

/-- However a stream is called, the outcome is the same, both what it holds and how the write
ends. -/
theorem WritesAll.eq (h : sink.WritesAll bytes outcome) (hkind : sink.kind ≠ .brokenFormatter) :
    outcome = sink.writeBytes bytes := by
  induction h with
  | @done sink =>
    obtain ⟨kind, held⟩ := sink
    cases kind with
    | brokenFormatter => exact absurd rfl hkind
    | unlimited => simp [writeBytes]
    | limited room => simp [writeBytes]
    | brokenStream => simp [writeBytes]
  | more _ htakes hn _ ih =>
    -- what is written so far and what is left stay the same together
    rw [← htakes.writeBytes_drop hn]
    refine ih ?_
    cases htakes <;> exact nofun
  | zero hne htakes =>
    cases htakes with
    | unlimited hpos _ => exact absurd hpos (Nat.lt_irrefl 0)
    | limited hpos _ _ => exact absurd hpos (Nat.lt_irrefl 0)
    | full => simp [writeBytes, hne]
  | broken hne => simp [writeBytes, hne]

theorem Takes.writesAll (h : sink.Takes bytes bytes.length next) (hne : bytes ≠ []) :
    sink.WritesAll bytes (next, none) := by
  refine .more hne h (fun hzero => hne (List.length_eq_zero_iff.1 hzero)) ?_
  rw [List.drop_length]
  exact .done

/-- The calls come to an end: as many bytes may be taken at once as there is room for, and one more
call finds out that there is none left. -/
theorem exists_writesAll (hkind : sink.kind ≠ .brokenFormatter) (bytes : List UInt8) :
    ∃ outcome, sink.WritesAll bytes outcome := by
  by_cases hne : bytes = []
  · subst hne
    exact ⟨_, .done⟩
  have hpos : 0 < bytes.length := List.length_pos_iff.2 hne
  obtain ⟨kind, held⟩ := sink
  cases kind with
  | brokenFormatter => exact absurd rfl hkind
  | brokenStream => exact ⟨_, .broken hne⟩
  | unlimited => exact ⟨_, (Takes.unlimited hpos (Nat.le_refl _)).writesAll hne⟩
  | limited room =>
    by_cases hfits : bytes.length ≤ room
    · exact ⟨_, (Takes.limited hpos (Nat.le_refl _) hfits).writesAll hne⟩
    rcases Nat.eq_zero_or_pos room with rfl | hroom
    · exact ⟨_, .zero hne .full⟩
    · have htakes : Takes bytes ⟨.limited room, held⟩ room _ :=
        .limited hroom (by omega) (Nat.le_refl _)
      have hrest : bytes.drop room ≠ [] := fun hnil => hfits (List.drop_eq_nil_iff.1 hnil)
      rw [Nat.sub_self] at htakes
      exact ⟨_, .more hne htakes (by omega) (.zero hrest .full)⟩

/-- A text is written to a stream by calls with its bytes, whatever each of them takes, and no other
outcome is possible. -/
theorem writesAll_iff (hkind : sink.kind ≠ .brokenFormatter) (text : Text) :
    sink.WritesAll text.utf8 outcome ↔ outcome = sink.write text := by
  rw [write_eq]
  constructor
  · exact fun h => h.eq hkind
  · rintro rfl
    obtain ⟨outcome, h⟩ := exists_writesAll hkind text.utf8
    exact h.eq hkind ▸ h

/-! ### Delivering a text -/

/-- The result of a delivery whose write ends so. The faults of a sink are told as they are. -/
def ending : Option TransferFault → Except DeliveryError Unit
  | none => .ok ()
  | some fault => .error (.sink fault)

/-- What a sink holds after this text was delivered to it, and whether the delivery succeeds. Each
kind of sink has its own rule. -/
structure Receives (sink : Sink) (text : Text) (result : Except DeliveryError Unit)
    (held : ByteArray) : Prop where
  unlimited : sink.kind = .unlimited →
    result = .ok () ∧ held = sink.held ++ text.utf8.toByteArray
  /-- A sink with room for so many bytes holds as many of them as that, even if the last character
  is cut. -/
  limited : ∀ room, sink.kind = .limited room →
    held = sink.held ++ (text.utf8.take (min room text.utf8.length)).toByteArray ∧
      (result = .ok () ↔ text.utf8.length ≤ room) ∧
      (room < text.utf8.length → result = .error (.sink .writeZero))
  brokenStream : sink.kind = .brokenStream → held = sink.held ∧ (result = .ok () ↔ text = []) ∧
    (text ≠ [] → result = .error (.sink .brokenPipe))
  brokenFormatter : sink.kind = .brokenFormatter → held = sink.held ∧
    result = .error (.sink .other)
  /-- The calls of a stream come to this outcome, whatever each of them takes. A formatter is not
  called in this way. -/
  calls : sink.kind ≠ .brokenFormatter → (∃ outcome, sink.WritesAll text.utf8 outcome) ∧
    ∀ next fault, sink.WritesAll text.utf8 (next, fault) →
      next.held = held ∧ result = ending fault

theorem deliver_ok (sink : Sink) (text : Text) :
    Session.deliver sink (.ok text) =
      .delivered (ending (sink.write text).2) (sink.write text).1.held := by
  rw [Session.deliver]
  cases sink.write text with
  | mk next fault => cases fault <;> rfl

theorem receives_write (sink : Sink) (text : Text) :
    sink.Receives text (ending (sink.write text).2) (sink.write text).1.held := by
  refine ⟨fun hkind => ?_, fun room hkind => ?_, fun hkind => ?_, fun hkind => ?_, fun hkind => ?_⟩
  · simp [write_eq, writeBytes, hkind, ending]
  · have htaken : text.utf8.take room = text.utf8.take (min room text.utf8.length) := by
      rw [List.take_eq_take_iff]
      omega
    simp only [write_eq, writeBytes, hkind, htaken, true_and]
    split_ifs with hfits
    · exact ⟨⟨fun _ => hfits, fun _ => rfl⟩, fun hlt => absurd hfits (Nat.not_le.2 hlt)⟩
    · exact ⟨⟨fun h => (by cases h), fun h => absurd h hfits⟩, fun _ => rfl⟩
  · simp only [write_eq, writeBytes, hkind, Text.length_utf8_eq_zero, true_and]
    split_ifs with hempty
    · exact ⟨⟨fun _ => hempty, fun _ => rfl⟩, fun hne => absurd hempty hne⟩
    · exact ⟨⟨fun h => (by cases h), fun h => absurd h hempty⟩, fun _ => rfl⟩
  · simp [write_eq, writeBytes, hkind, ending]
  · refine ⟨⟨_, (writesAll_iff hkind text).2 rfl⟩, fun next fault h => ?_⟩
    rw [← (writesAll_iff hkind text).1 h]
    exact ⟨rfl, rfl⟩

end Sink

namespace Session

theorem withTemplate_of_lookup {session : Session} {id : Text} {template : Template}
    {f : Template → Session × Reply} (h : session.templates.lookup id = some template) :
    session.withTemplate id f = f template := by
  rw [withTemplate, h]

/-- A step that fills into a sink fills as the step that gives the text does. If that fails, the
sink is left alone, and otherwise it receives the text. Only the faults of sinks are told as what
they are. -/
theorem run_fillInto {session : Session} {map id : Text} {template : Template}
    (h : session.templates.lookup id = some template) (data : Provider) (sink : Sink) :
    let result :=
      ((template.fillWithin session.limit (session.map map) data).run session.tally).result
    let filled := session.run map (.fill id data)
    let delivered := session.run map (.fillInto id data sink)
    filled.2 = .filled result ∧ delivered.1 = filled.1 ∧
      (∀ reason, result = .error reason →
        delivered.2 = .delivered (.error (.fill reason)) sink.held) ∧
      (∀ text, result = .ok text → ∃ result held, delivered.2 = .delivered result held ∧
        sink.Receives text result held) ∧
      ∀ e : DeliveryError, (∀ fault, e = .sink fault → e.fault = fault) ∧
        ((∀ fault, e ≠ .sink fault) → e.fault = .invalidData) := by
  intro result filled delivered
  let mentioned := session.setMap map (session.map map)
  have hlookup : mentioned.templates.lookup id = some template := h
  have hresult : (mentioned.fillWith map id template data).2 = result := by
    rw [fillWith, map_mention]
    rfl
  have hfilled : filled = ((mentioned.fillWith map id template data).1, .filled result) := by
    rw [← hresult]
    exact withTemplate_of_lookup hlookup
  have hdelivered : delivered =
      ((mentioned.fillWith map id template data).1, deliver sink result) := by
    rw [← hresult]
    exact withTemplate_of_lookup hlookup
  refine ⟨by rw [hfilled], by rw [hdelivered, hfilled], fun reason hreason => ?_,
    fun text htext => ?_, fun e => ?_⟩
  · rw [hdelivered, hreason]
    rfl
  · refine ⟨_, _, ?_, sink.receives_write text⟩
    rw [hdelivered, htext, Sink.deliver_ok]
  · cases e with
    | fill reason => exact ⟨fun _ he => (by cases he), fun _ => rfl⟩
    | sink fault => exact ⟨fun _ he => (by cases he; rfl), fun hne => absurd rfl (hne fault)⟩

/-- A template that is filled with a character of two bytes after one of one byte, so that a sink
can take half of it. -/
def narrowTemplate : Template :=
  .new "a\x7b\x7bx\x7d\x7d".toList

def narrowSession : Session :=
  { empty 9 with templates := [(['t'], narrowTemplate)] }

/-- A sink with room for half of the second character: bytes are counted, and not characters. -/
def narrowSink : Sink :=
  ⟨.limited 2, .empty⟩

theorem run_fillInto_narrow :
    narrowSession.templates.lookup ['t'] = some narrowTemplate ∧
      ∃ result held, (narrowSession.run [] (.fillInto ['t']
          (.map none [(['x'], .scalar ['é'])]) narrowSink)).2 = .delivered result held ∧
        narrowSink.Receives ['a', 'é'] result held ∧ held = [0x61, 0xC3].toByteArray ∧
        result = .error (.sink .writeZero) := by
  have hlookup : narrowSession.templates.lookup ['t'] = some narrowTemplate := rfl
  have hfill : ((narrowTemplate.fillWithin narrowSession.limit (narrowSession.map [])
      (.map none [(['x'], .scalar ['é'])])).run narrowSession.tally).result = .ok ['a', 'é'] := by
    decide +kernel
  obtain ⟨-, -, -, hdelivered, -⟩ := @run_fillInto narrowSession [] ['t'] narrowTemplate hlookup
    (.map none [(['x'], .scalar ['é'])]) narrowSink
  obtain ⟨result, held, hreply, hreceives⟩ := hdelivered _ hfill
  obtain ⟨hheld, -, hresult⟩ := hreceives.limited 2 rfl
  refine ⟨hlookup, result, held, hreply, hreceives, ?_, hresult (by decide)⟩
  rw [hheld]
  decide

end Session

end Stencil
