import ProxyCensus.Proofs.Contract.Classification
import ProxyCensus.Proofs.Detection.Catalogs
import ProxyCensus.Proofs.Hex.Reading
import ProxyCensus.Proofs.Job.ScanRows

/-!
# Spellings of code

The code of a contract is given as text. Main statement: all spellings of some code show the same
patterns; a text with an odd number of digits or with another character is refused as no code, which is
the only failure of detection, and the row that it came from is reported and skipped.
-/

namespace ProxyCensus

namespace Detection

variable {catalog : List Definition} {text : String} {bytes : List UInt8} {f : Failure}

/-- Exactly the texts of pairs of digits and plain white space are code. -/
theorem codeBytes_eq_ok_iff : codeBytes text = .ok bytes ↔ Hex.Paired bytes (Hex.clean text) := by
  rw [← Hex.decode_eq_ok_iff, codeBytes]
  cases Hex.decode (Hex.clean text) <;> simp [Except.mapError]

theorem codeBytes_of_spells (h : Hex.Spells bytes text) : codeBytes text = .ok bytes := by
  rw [codeBytes, h.decode_clean]
  rfl

theorem inText_of_codeBytes (h : codeBytes text = .ok bytes) (catalog : List Definition) :
    inText catalog text = inCode catalog bytes := by
  rw [inText, h]
  rfl

theorem inText_of_no_code (h : codeBytes text = .error f) (catalog : List Definition) :
    inText catalog text = .error f := by
  rw [inText, h]
  rfl

theorem badBytecode_of_codeBytes (h : codeBytes text = .error f) : ∃ reason, f = .badBytecode reason := by
  unfold codeBytes at h
  cases hread : Hex.decode (Hex.clean text) with
  | ok bytes => simp [hread, Except.mapError] at h
  | error pos =>
    rw [hread] at h
    exact ⟨_, (Except.error.inj h).symm⟩

theorem codeBytes_of_faulty (h : Hex.Faulty text) :
    ∃ reason, codeBytes text = .error (.badBytecode reason) := by
  obtain ⟨pos, hpos⟩ := h.decode_clean
  rw [codeBytes, hpos]
  exact ⟨_, rfl⟩

theorem readable_iff {t : Template} : Readable t ↔
    (templateBytes t.front).toOption.isSome = true ∧ (templateBytes t.back).toOption.isSome = true := by
  have hok : ∀ r : Except Failure (List UInt8), (∃ bytes, r = .ok bytes) ↔
    r.toOption.isSome = true := by
    rintro (_ | _) <;> simp [Except.toOption]
  exact and_congr (hok _) (hok _)

instance (t : Template) : Decidable (Readable t) :=
  decidable_of_iff _ readable_iff.symm

theorem readable_of_mem_builtIn : ∀ d ∈ Catalog.builtIn, ∀ t ∈ d.templates, Readable t := by
  decide +kernel

/-- Code is searched without failure if the templates are hexadecimal. -/
theorem inCode_returns (h : ∀ d ∈ catalog, ∀ t ∈ d.templates, Readable t) (code : List UInt8) :
    ∃ found, inCode catalog code = .ok found := by
  obtain ⟨clones, hclones, -⟩ := templateMatches_returns h code
  rw [inCode_eq, allMatches, hclones]
  dsimp only [bind, Except.bind]
  split <;> exact ⟨_, rfl⟩

/-- A search that fails does so because the text is no code. -/
theorem codeBytes_of_inText (h : ∀ d ∈ catalog, ∀ t ∈ d.templates, Readable t)
    (hf : inText catalog text = .error f) : codeBytes text = .error f := by
  cases hcode : codeBytes text with
  | error e =>
    rw [inText_of_no_code hcode] at hf
    exact congrArg _ (Except.error.inj hf)
  | ok code =>
    obtain ⟨found, hfound⟩ := inCode_returns h code
    rw [inText_of_codeBytes hcode, hfound] at hf
    cases hf

end Detection

theorem ContractRecord.bytecode_of_ofRow {row : Row} {record : ContractRecord} {text : String}
    (h : ofRow row = .ok record) (hcode : Json.lookup? row "code" = some (.str text)) :
    record.bytecode = text := by
  obtain ⟨_, _, _, _, _, _, hfields⟩ := ofRow_eq_ok h
  obtain ⟨-, -, hread, -⟩ := ofFields_eq_ok_iff.1 (ofFields?_eq_ok_iff.1 hfields)
  have hset : codeOrEmpty (.str text) = .str text := by
    unfold codeOrEmpty
    split
    · rfl
    · rename_i hempty
      simp [Json.isSet] at hempty
      rw [hempty]
  rw [hcode, Option.getD_some, hset] at hread
  obtain ⟨heq, -⟩ := Checked.text_eq_ok_iff.1 (Checked.under_eq_ok_iff.1 hread)
  exact (Json.str.inj heq).symm

namespace Scan

open Detection (codeBytes inText inCode Readable)
open Decimal (Number)

variable {α : Type}

/-- The scan reports a row, for a failure of its own or because its code is none, and counts it as
skipped. Nothing changes but the progress, the readings of the stopwatch and the messages. -/
def Skips (out : Outside α) (row : Row) (text : String) (job : Scan α) : Prop :=
  ∃ f readings,
    (ContractRecord.ofRow row = .error f ∨
      codeBytes text = .error f ∧ ∃ reason, f = .badBytecode reason) ∧
    (scanRow out row).go job = (do reportRow row f; tracking (Tracked.track 1 true) : Act (Scan α) Unit).go
      { job with journal := { job.journal with stopwatches := readings } } ∧
    ∃ r logs, (scanRow out row).go job = (r, { job with
      task := { job.task with progress := job.task.progress.add 1 true }
      journal := { job.journal with stopwatches := readings, logs := logs } })

/-- A row whose code is none fails, if nothing else is wrong with it, for its code. -/
theorem classified_of_faulty {row : Row} {text : String}
    (hcode : Json.lookup? row "code" = some (.str text)) (hfaulty : Hex.Faulty text)
    (catalog : List Definition) (stopwatch : Nat → Number) (n : Nat) :
    ∃ f readings, classified catalog stopwatch n row = (.error f, readings) ∧
      (ContractRecord.ofRow row = .error f ∨
        codeBytes text = .error f ∧ ∃ reason, f = .badBytecode reason) := by
  unfold classified
  cases hrow : ContractRecord.ofRow row with
  | error f => exact ⟨f, n, rfl, .inl rfl⟩
  | ok record =>
    obtain ⟨reason, hrefused⟩ := Detection.codeBytes_of_faulty hfaulty
    have hrecord : Classification.ofRecord catalog record = .error (.badBytecode reason) := by
      rw [Classification.ofRecord, ContractRecord.bytecode_of_ofRow hrow hcode,
        Detection.inText_of_no_code hrefused]
      rfl
    dsimp only
    rw [hrecord]
    exact ⟨_, _, rfl, .inr ⟨hrefused, reason, rfl⟩⟩

theorem skips_of_faulty (out : Outside α) {row : Row} {text : String}
    (hcode : Json.lookup? row "code" = some (.str text)) (hfaulty : Hex.Faulty text) (job : Scan α) :
    Skips out row text job := by
  obtain ⟨f, readings, hclassified, hf⟩ := classified_of_faulty hcode hfaulty job.task.catalog
    out.stopwatch job.journal.stopwatches
  have hgo : (scanRow out row).go job =
      (do reportRow row f; tracking (Tracked.track 1 true) : Act (Scan α) Unit).go
        { job with journal := { job.journal with stopwatches := readings } } := by
    unfold scanRow
    rw [Act.go_bind, Act.go_outcome, go_classify, hclassified]
  refine ⟨f, readings, hf, hgo, ?_⟩
  obtain ⟨said, hsaid⟩ := go_reportRow row f
    { job with journal := { job.journal with stopwatches := readings } }
  obtain ⟨r, logs, htrack⟩ := Tracked.go_track_cases
    ⟨job.task.progress, { job.journal with stopwatches := readings, logs := said }⟩ 1 true
  refine ⟨r, logs, ?_⟩
  rw [hgo, Act.go_bind, hsaid]
  unfold tracking
  dsimp only
  rw [Act.go_on, htrack]

/-- A text is code exactly when it is made of pairs of digits and plain white space. All spellings of some
code show what this code shows. A text with an odd number of digits, or with a character that is neither a
digit nor plain white space, is refused as no code, and a row with it is reported and skipped. With
templates that are hexadecimal, such as the built-in ones, no text fails in another way. -/
theorem code_spelled_or_skipped (text : String) :
    (∀ bytes, codeBytes text = .ok bytes ↔ Hex.Paired bytes (Hex.clean text)) ∧
    (∀ bytes, Hex.Spells bytes text → codeBytes text = .ok bytes ∧
      ∀ catalog, inText catalog text = inCode catalog bytes) ∧
    (Hex.Faulty text →
      (∀ catalog, ∃ reason, inText catalog text = .error (.badBytecode reason)) ∧
      ∀ (out : Outside α) (row : Row) (job : Scan α),
        Json.lookup? row "code" = some (.str text) → Skips out row text job) ∧
    (∀ catalog, (∀ d ∈ catalog, ∀ t ∈ d.templates, Readable t) → ∀ f,
      inText catalog text = .error f → ∃ reason, f = .badBytecode reason) ∧
    ∀ d ∈ Catalog.builtIn, ∀ t ∈ d.templates, Readable t := by
  refine ⟨fun bytes => Detection.codeBytes_eq_ok_iff, fun bytes h => ?_,
    fun hfaulty => ⟨fun catalog => ?_, ?_⟩, fun catalog hcatalog f hf => ?_,
    Detection.readable_of_mem_builtIn⟩
  · have hcode := Detection.codeBytes_of_spells h
    exact ⟨hcode, Detection.inText_of_codeBytes hcode⟩
  · obtain ⟨reason, hrefused⟩ := Detection.codeBytes_of_faulty hfaulty
    exact ⟨reason, Detection.inText_of_no_code hrefused catalog⟩
  · exact fun out row job hcode => skips_of_faulty out hcode hfaulty job
  · exact Detection.badBytecode_of_codeBytes (Detection.codeBytes_of_inText hcatalog hf)

/-- A spelling with blanks, a capital marker and digits in either case; a digit too many; a row with a
letter that is no digit; a blank in the middle of a byte. -/
theorem code_spelled_or_skipped_of_four_texts :
    codeBytes " \n0X5Bf4\t" = .ok [0x5b, 0xf4] ∧
      inText Catalog.builtIn " \n0X5Bf4\t" = inCode Catalog.builtIn [0x5b, 0xf4] ∧
      (∃ reason, inText Catalog.builtIn "0x5bf" = .error (.badBytecode reason)) ∧
      (∀ (out : Outside Unit) (job : Scan Unit), Skips out [("chain_id", .int 1),
        ("address", .str "0x1111111111111111111111111111111111111111"), ("code", .str "0x5bg4")]
        "0x5bg4" job) ∧
      ∃ f, inText Catalog.builtIn "0x5b f 4" = .error f ∧ ∃ reason, f = .badBytecode reason := by
  have hspells : Hex.Spells [0x5b, 0xf4] " \n0X5Bf4\t" :=
    @Hex.Spells.intro [0x5b, 0xf4] [' ', '\n'] ['0', 'X'] ['5', 'B', 'f', '4'] ['\t']
      (List.all_eq_true.1 (by decide)) (by simp) (by decide) (List.all_eq_true.1 (by decide))
  obtain ⟨-, hspelled, -⟩ := @code_spelled_or_skipped Unit " \n0X5Bf4\t"
  obtain ⟨hcode, hshown⟩ := hspelled _ hspells
  obtain ⟨-, -, hodd, -⟩ := @code_spelled_or_skipped Unit "0x5bf"
  obtain ⟨-, -, hletter, -⟩ := @code_spelled_or_skipped Unit "0x5bg4"
  obtain ⟨-, -, -, hother, hreadable⟩ := @code_spelled_or_skipped Unit "0x5b f 4"
  refine ⟨hcode, hshown _, (hodd (by decide)).1 _, fun out job =>
    (hletter (by decide)).2 out _ job rfl, ?_⟩
  have hfails : (inText Catalog.builtIn "0x5b f 4").toOption.isNone = true := by decide +kernel
  cases hsearch : inText Catalog.builtIn "0x5b f 4" with
  | error f => exact ⟨f, rfl, hother _ hreadable f hsearch⟩
  | ok found => simp [hsearch, Except.toOption] at hfails

end Scan

end ProxyCensus
