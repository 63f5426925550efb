import Sluicio.Lib.Mime

/-!
# Alert e-mails

`emailMessageMultipart` writes the header, and the text and the HTML of a notification as the
two parts of a `multipart/alternative`.  The header's values are made safe for a line; the bodies
stand between delimiters of one boundary, which is the same in every message.
-/

namespace Sluicio.Alerting

open Lib
open Lib.Mime

def headerSafe (s : Bytes) : Bytes := s.map fun b => if b = cr ∨ b = lf then 32 else b

theorem lf_notMem_headerSafe (s : Bytes) : lf ∉ headerSafe s := by
  intro hmem
  obtain ⟨b, -, hb⟩ := List.mem_map.1 hmem
  by_cases hbreak : b = cr ∨ b = lf
  · rw [if_pos hbreak] at hb
    exact absurd hb (by decide)
  · rw [if_neg hbreak] at hb
    exact hbreak (.inr hb)

/-- A time as `time.RFC1123Z` prints it, on one line. -/
structure Date where
  text : Bytes
  oneLine : lf ∉ text

/-- What a message is made of. -/
structure EmailContent where
  date : Date
  sender : Bytes
  recipients : List Bytes
  subject : Bytes
  text : Bytes
  html : Bytes

def boundary : Bytes := ascii "----=_sluicio_alt_b0undary_2f8a"

def emailMessageMultipart (e : EmailContent) : Bytes :=
  ascii "From: " ++ headerSafe e.sender ++ crlf ++
    (ascii "To: " ++ headerSafe ((ascii ", ").intercalate e.recipients) ++ crlf) ++
    (ascii "Subject: " ++ headerSafe e.subject ++ crlf) ++
    (ascii "Date: " ++ e.date.text ++ crlf) ++
    (ascii "MIME-Version: 1.0" ++ crlf) ++
    (ascii "Content-Type: multipart/alternative; boundary=\"" ++ boundary ++ ascii "\"" ++ crlf ++
      crlf) ++
    (ascii "--" ++ boundary ++ crlf) ++
    (ascii "Content-Type: text/plain; charset=utf-8" ++ crlf ++ crlf) ++
    e.text ++ crlf ++
    (ascii "--" ++ boundary ++ crlf) ++
    (ascii "Content-Type: text/html; charset=utf-8" ++ crlf ++ crlf) ++
    e.html ++ crlf ++
    (ascii "--" ++ boundary ++ ascii "--" ++ crlf)

/-! ## What it is meant to be -/

def EmailContent.fields (e : EmailContent) : List Field :=
  [(ascii "From", headerSafe e.sender),
    (ascii "To", headerSafe ((ascii ", ").intercalate e.recipients)),
    (ascii "Subject", headerSafe e.subject),
    (ascii "Date", e.date.text),
    (ascii "MIME-Version", ascii "1.0"),
    (ascii "Content-Type", ascii "multipart/alternative; boundary=\"" ++ boundary ++ ascii "\"")]

/-- The message: six fields, and the text and the HTML as its parts. -/
def EmailContent.mail (e : EmailContent) : Mail where
  fields := e.fields
  parts :=
    [⟨[(ascii "Content-Type", ascii "text/plain; charset=utf-8")], e.text⟩,
      ⟨[(ascii "Content-Type", ascii "text/html; charset=utf-8")], e.html⟩]

section Message

variable (e : EmailContent)

theorem emailMessageMultipart_eq : emailMessageMultipart e = mailText boundary e.mail := by
  have hsender : ascii "From: " = ascii "From" ++ [colon, 32] := by decide
  have hrecipients : ascii "To: " = ascii "To" ++ [colon, 32] := by decide
  have hsubject : ascii "Subject: " = ascii "Subject" ++ [colon, 32] := by decide
  have hdate : ascii "Date: " = ascii "Date" ++ [colon, 32] := by decide
  have hversion : ascii "MIME-Version: 1.0" =
      ascii "MIME-Version" ++ [colon, 32] ++ ascii "1.0" := by decide
  have htype : ascii "Content-Type: multipart/alternative; boundary=\"" =
      ascii "Content-Type" ++ [colon, 32] ++ ascii "multipart/alternative; boundary=\"" := by
    decide
  have hplain : ascii "Content-Type: text/plain; charset=utf-8" =
      ascii "Content-Type" ++ [colon, 32] ++ ascii "text/plain; charset=utf-8" := by decide
  have hhtml : ascii "Content-Type: text/html; charset=utf-8" =
      ascii "Content-Type" ++ [colon, 32] ++ ascii "text/html; charset=utf-8" := by decide
  have hdashes : ascii "--" = [45, 45] := by decide
  rw [emailMessageMultipart, hsender, hrecipients, hsubject, hdate, hversion, htype, hplain, hhtml,
    hdashes]
  simp only [mailText, EmailContent.mail, EmailContent.fields, fieldText, fieldLine, partsText,
    partText, dashed, List.flatMap_cons, List.flatMap_nil, List.append_assoc, List.cons_append,
    List.nil_append, List.append_nil]

theorem isName_of_mem_fields : ∀ f ∈ e.fields, IsName f.1 := by
  have hnames : ∀ name ∈ e.fields.map Prod.fst, IsName name := by
    show ∀ name ∈ [ascii "From", ascii "To", ascii "Subject", ascii "Date", ascii "MIME-Version",
      ascii "Content-Type"], IsName name
    decide +kernel
  intro f hf
  exact hnames f.1 (List.mem_map_of_mem hf)

theorem lf_notMem_of_mem_fields : ∀ f ∈ e.fields, lf ∉ f.2 := by
  have hbodies : ∀ body ∈ e.fields.map Prod.snd, lf ∉ body := by
    show ∀ body ∈ [headerSafe e.sender, headerSafe ((ascii ", ").intercalate e.recipients),
      headerSafe e.subject, e.date.text, ascii "1.0",
      ascii "multipart/alternative; boundary=\"" ++ boundary ++ ascii "\""], lf ∉ body
    simp only [List.forall_mem_cons]
    refine ⟨lf_notMem_headerSafe _, lf_notMem_headerSafe _, lf_notMem_headerSafe _,
      e.date.oneLine, by decide, by decide, List.forall_mem_nil _⟩
  intro f hf
  exact hbodies f.2 (List.mem_map_of_mem hf)

theorem lookup_contentType :
    (e.fields.lookup (ascii "Content-Type")).bind boundaryOf = some boundary := by
  have hlookup : e.fields.lookup (ascii "Content-Type") =
      some (ascii "multipart/alternative; boundary=\"" ++ boundary ++ ascii "\"") := rfl
  rw [hlookup]
  decide

theorem writable_of_mem_parts : ∀ p ∈ e.mail.parts, Writable boundary p.fields := by
  have hcontentType : ∀ body ∈ [ascii "text/plain; charset=utf-8",
      ascii "text/html; charset=utf-8"], Writable boundary [(ascii "Content-Type", body)] := by
    intro body hbody
    constructor
    · simp only [List.forall_mem_singleton]
      decide +kernel
    · simp only [List.forall_mem_singleton]
      revert body
      decide +kernel
    · simp only [List.forall_mem_singleton]
      revert body
      decide +kernel
  show ∀ p ∈ [_, _], _
  rw [List.forall_mem_cons, List.forall_mem_singleton]
  exact ⟨hcontentType _ (by decide), hcontentType _ (by decide)⟩

end Message

/-- **An alert e-mail is well formed** just when neither body has a line that begins with two
hyphens and the boundary. -/
theorem parseMail_emailMessageMultipart_iff (e : EmailContent) :
    parseMail (emailMessageMultipart e) = e.mail ↔
      Undelimited boundary e.text ∧ Undelimited boundary e.html := by
  rw [emailMessageMultipart_eq, parseMail_mailText_iff (by decide) (isName_of_mem_fields e)
    (lf_notMem_of_mem_fields e) (lookup_contentType e) (writable_of_mem_parts e)]
  show (∀ p ∈ [_, _], _) ↔ _
  rw [List.forall_mem_cons, List.forall_mem_singleton]

/-- A rule's text that holds the boundary: the part ends there. -/
private def quoted : EmailContent where
  date := ⟨ascii "Mon, 02 Jan 2006 15:04:05 +0000", by decide⟩
  sender := ascii "sluicio@example.com"
  recipients := [ascii "ops@example.com"]
  subject := ascii "Errors"
  text := ascii "------=_sluicio_alt_b0undary_2f8a"
  html := ascii "<p>Errors</p>"

theorem quoted_boundary_splits : parseMail (emailMessageMultipart quoted) ≠ quoted.mail := by
  decide +kernel

end Sluicio.Alerting
