import GatewayCache.Proofs.Json.RoundTrip
import GatewayCache.Proofs.Json.Writer

/-! # Lines round-trip

An update that is written as a frame on a line of its own is read from the line as it was,
whatever white space is around the frame, in whatever order its fields stand and whatever
other fields stand among them.
-/

namespace GatewayCache

namespace Json

theorem getLast?_moreFields (fields : List (String × Json)) :
    (moreFields fields).getLast? = some '\x7d' := by
  induction fields with
  | nil => rfl
  | cons field more ih => simp [moreFields, List.getLast?_cons, List.getLast?_append, ih]

/-- An object is written between braces, so there is no white space at its ends. -/
theorem bare_object (fields : List (String × Json)) : Text.Bare (Json.obj fields).chars := by
  have closing : (Json.obj fields).chars.getLast? = some '\x7d' := by
    cases fields with
    | nil => rfl
    | cons field more =>
      simp [chars, List.getLast?_cons, List.getLast?_append, getLast?_moreFields]
  refine ⟨fun c first => ?_, fun c last => ?_⟩
  · obtain rfl : '\x7b' = c := by cases fields <;> exact Option.some.inj first
    decide
  · obtain rfl : '\x7d' = c := Option.some.inj (closing.symm.trans last)
    decide

end Json

theorem Fields.get?_ofList {fields : List (String × Json)} {key : String} {value : Json}
    (only : valuesAt key fields = [value]) : (Fields.ofList fields).get? key = some value := by
  have read := cells.get?_layAll (fun _ value => value) key fields []
  rw [only] at read
  exact read

namespace Dispatch

variable {dispatch : Dispatch} {others fields : List (String × Json)}

theorem Frames.valuesAt (frames : dispatch.Frames others fields) :
    valuesAt "t" fields = [.str dispatch.name] ∧ valuesAt "d" fields = [dispatch.data] := by
  obtain ⟨apart, same⟩ := frames
  have names := valuesAt_perm "t" same
  have data := valuesAt_perm "d" same
  have noName := valuesAt_eq_nil (fun field member => (apart field member).1)
  have noData := valuesAt_eq_nil (fun field member => (apart field member).2)
  constructor
  · refine List.perm_singleton.mp (names.trans ?_)
    simp [GatewayCache.valuesAt] at noName ⊢
    exact noName
  · refine List.perm_singleton.mp (data.trans ?_)
    simp [GatewayCache.valuesAt] at noData ⊢
    exact noData

theorem ofFrame_object (frames : dispatch.Frames others fields) :
    ofFrame (Json.object fields) = .ok (some dispatch) := by
  obtain ⟨name, data⟩ := frames.valuesAt
  have readName : (Json.object fields).get? "t" = some (.str dispatch.name) := Fields.get?_ofList name
  have readData : (Json.object fields).get? "d" = some dispatch.data := Fields.get?_ofList data
  simp [ofFrame, readName, readData, Json.ofOption]

theorem Frames.plain (frames : dispatch.Frames others fields) {levels : Nat}
    (data : dispatch.data.Plain levels) (bounded : ∀ field ∈ others, field.2.Plain levels) :
    ∀ field ∈ fields, field.2.Plain levels := by
  intro field member
  rcases List.mem_cons.mp (frames.2.mem_iff.mp member) with rfl | behind
  · exact ⟨rfl, rfl, Nat.zero_le _⟩
  rcases List.mem_cons.mp behind with rfl | other
  · exact data
  · exact bounded field other

/-- An update with data that is free of floats and nested at most 126 deep is read again from the line
that it is written as, whatever white space is put around it, and from every frame that has further
fields of the same sort among its own, in any order. Such a frame takes just one line. -/
theorem ofLine_frame (dispatch : Dispatch) (data : dispatch.data.Plain 126)
    {others fields : List (String × Json)} (bounded : ∀ field ∈ others, field.2.Plain 126)
    (frames : dispatch.Frames others fields) :
    '\n' ∉ (Json.obj fields).chars ∧
      ∀ line : String, Text.Padded (Json.obj fields).chars line.toList →
        ofLine line = .ok (some dispatch) := by
  refine ⟨Json.lineFeed_not_mem_chars _, fun line padded => ?_⟩
  have trimmed := Text.trim_of_padded padded (Json.bare_object fields)
  have nonempty : (Json.obj fields).chars.isEmpty = false := by cases fields <;> rfl
  have frame := Json.read?_object (frames.plain data bounded)
  rw [Json.compact] at frame
  simp only [ofLine, trimmed, nonempty, frame]
  exact ofFrame_object frames

theorem ofLine_frame_deep :
    let least : Json := .num (.negative (Fin.last 0x7fffffffffffffff))
    let deep := Nat.repeat (fun value => Json.arr [value]) 125 least
    let dispatch : Dispatch := ⟨"\"GUILD\"\n", .obj [("deep", deep)]⟩
    let fields := [("op", .num (.unsigned 0xffffffffffffffff)), ("d", dispatch.data),
      ("t", .str dispatch.name)]
    dispatch.data.depth = 126 ∧
      ofLine (String.ofList ('\u2003' :: ((Json.obj fields).chars ++ ['\n', ' ']))) =
        .ok (some dispatch) := by
  intro least deep dispatch fields
  have depth : dispatch.data.depth = 126 := by decide +kernel
  have data : dispatch.data.Plain 126 := ⟨by decide +kernel, by decide +kernel, Nat.le_of_eq depth⟩
  have bounded : ∀ field ∈ [("op", Json.num (.unsigned 0xffffffffffffffff))], field.2.Plain 126 := by
    simp only [List.mem_singleton, forall_eq]
    exact ⟨rfl, rfl, Nat.zero_le _⟩
  have frames : dispatch.Frames [("op", .num (.unsigned 0xffffffffffffffff))] fields :=
    ⟨by simp, (List.reverse_perm fields).symm⟩
  have padded : Text.Padded (Json.obj fields).chars
      (String.ofList ('\u2003' :: ((Json.obj fields).chars ++ ['\n', ' ']))).toList :=
    ⟨['\u2003'], ['\n', ' '], List.all_eq_true.mp rfl, List.all_eq_true.mp rfl, by simp⟩
  exact ⟨depth, (ofLine_frame dispatch data bounded frames).2 _ padded⟩

end Dispatch

end GatewayCache
