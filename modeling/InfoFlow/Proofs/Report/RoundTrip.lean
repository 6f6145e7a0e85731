import InfoFlow.Proofs.Json.Layout
import InfoFlow.Proofs.Json.Structure
import InfoFlow.Report.Json

/-!
# Reports lose nothing in JSON

A report in JSON is one value, laid out over several lines, and a line break. It is read back as
the same report, whatever the names of its frames and whatever its messages, as long as its
numbers fit in a machine word. Without that it is still read back as the same value, so that no
two reports have one text (`json_lossless`).
-/

namespace InfoFlow

/-! ## §1  Violations and reports as values -/

theorem Json.count?_natural {n : Nat} (h : n < UInt64.size) : (Json.natural n).count? = some n := by
  have hword := Json.word?_natural (UInt64.ofNat n)
  have hsame : (UInt64.ofNat n).toNat = n := UInt64.toNat_ofNat_of_lt h
  rw [hsame] at hword
  rw [Json.count?, hword, Option.map_some, hsame]

namespace Violation

theorem ofJson?_toJson {v : Violation} (h : v.step < UInt64.size) :
    ofJson? v.toJson = some v := by
  unfold ofJson? toJson
  simp [Json.fields?_record, Json.count?_natural h]

theorem toJson_injective : Function.Injective toJson := by
  intro v w h
  obtain ⟨hstep, hframe, hmessage⟩ : v.step = w.step ∧ v.frame = w.frame ∧ v.message = w.message := by
    simpa [toJson, Json.record, Json.natural, Json.text] using h
  cases v
  cases w
  simp_all

end Violation

namespace Report

/-- All numbers of a report are below `2 ^ 64`. -/
structure Fits (report : Report) : Prop where
  stepsExecuted : report.stepsExecuted < UInt64.size
  step : ∀ v ∈ report.violations, v.step < UInt64.size

theorem ofJson?_toJson {report : Report} (h : report.Fits) :
    ofJson? report.toJson = some report := by
  have hviolations : Json.list? Violation.ofJson?
      (.array (report.violations.map Violation.toJson)) = some report.violations :=
    Json.list?_array_of_mem fun v hv => Violation.ofJson?_toJson (h.step v hv)
  unfold ofJson? toJson
  simp [Json.fields?_record, Json.count?_natural h.stepsExecuted, hviolations]

theorem toJson_injective : Function.Injective toJson := by
  intro first second h
  obtain ⟨hsteps, hviolations⟩ : first.stepsExecuted = second.stepsExecuted ∧
      first.violations.map Violation.toJson = second.violations.map Violation.toJson := by
    simpa [toJson, Json.record, Json.natural] using h
  have hsame := List.map_injective_iff.2 Violation.toJson_injective hviolations
  cases first
  cases second
  simp_all

/-! ## §2  Reports as texts -/

/-- The text in JSON is read as one value, with nothing but the line break after it. -/
theorem read?_jsonText (report : Report) :
    Json.read? (report.render true) = some report.toJson := by
  have hblank : ∀ c ∈ ['\n'], Lexer.isBlank c = true := by
    intro c hc
    rw [List.mem_singleton.1 hc]
    rfl
  exact report.toJson.read?_indented_append hblank

theorem getLast?_laidOut (report : Report) (depth : Nat) :
    (report.toJson.laidOut depth).getLast? = some '\x7d' := by
  rw [toJson, Json.record_eq_object, Json.laidOut]
  exact List.getLast?_concat

/-- **A report in JSON loses nothing.** -/
theorem json_lossless (report : Report) (hfits : report.Fits) :
    report.render true = String.ofList (report.toJson.laidOut 0 ++ ['\n']) ∧
      (report.toJson.laidOut 0).getLast? = some '\x7d' ∧
      Json.read? (report.render true) = some report.toJson ∧
      Report.read? (report.render true) = some report ∧
      ∀ other : Report, other.render true = report.render true → other = report := by
  refine ⟨?_, report.getLast?_laidOut 0, report.read?_jsonText, ?_, ?_⟩
  · show report.toJson.indented ++ "\n" = _
    rw [Json.indented_eq, String.ofList_append]
  · rw [Report.read?, read?_jsonText, Option.bind_eq_bind, Option.bind_some]
    exact ofJson?_toJson hfits
  · intro other hsame
    have hvalue : some other.toJson = some report.toJson := by
      rw [← read?_jsonText, ← read?_jsonText, hsame]
    exact toJson_injective (Option.some.inj hvalue)

example :
    (⟨5, [⟨4, "main", "a \"b\""⟩]⟩ : Report).render true =
      "\x7b\n  \"steps_executed\": 5,\n  \"violations\": [\n" ++
      "    \x7b\n      \"step\": 4,\n      \"frame\": \"main\",\n" ++
      "      \"message\": \"a \\\"b\\\"\"\n    \x7d\n  ]\n\x7d\n" := by
  decide +kernel

section Witness

/-- A message with a quotation mark, a backslash, a line break and other control characters, a
frame without a name, a character outside the basic plane, and the greatest numbers. -/
def oddMessages : Report where
  stepsExecuted := 0xFFFFFFFFFFFFFFFF
  violations :=
    [⟨0, "", "Illegal flow to local '\"\\\n\r\t\u0000\u001f\x7f'"⟩,
      ⟨0xFFFFFFFFFFFFFFFE, "🔒\x08\x0c", "\x7b[,:]\x7d /"⟩]

theorem json_lossless_oddMessages :
    oddMessages.Fits ∧ Report.read? (oddMessages.render true) = some oddMessages ∧
      ∀ other : Report, other.render true = oddMessages.render true → other = oddMessages := by
  have hfits : oddMessages.Fits := ⟨by decide, by decide⟩
  obtain ⟨-, -, -, hread, hinjective⟩ := json_lossless oddMessages hfits
  exact ⟨hfits, hread, hinjective⟩

end Witness

end Report

end InfoFlow
