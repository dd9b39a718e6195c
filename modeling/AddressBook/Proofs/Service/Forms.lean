import AddressBook.Proofs.Http.Form
import AddressBook.Proofs.Service.Uploads
import AddressBook.Proofs.Store.UploadFolder
/-!
# Uploads of forms

Of a form that is sent to be stored, the first part for a file decides. Without one, or if it is empty, the upload is refused
and nothing changes, even if parts with content follow. Otherwise its content becomes one new file, under the fresh name with
what is kept of the file's own name, unless that is too long. No other part makes a difference.
-/

namespace AddressBook

open FileTree (FitsBelow LeadsToFolder SameFolders)
open Http (MediaType Request Response)
open Http.Multipart (Form SentPart)

namespace Service

variable {start service : Service} {occasion : Occasion} {request : Request} {form : Form} {fresh : String}

/-! ### Requests with forms -/

/-- A request sends a form to be stored. -/
structure Sends (request : Request) (form : Form) : Prop where
  method : request.method = .post
  route : Route.ofPath? (Http.Target.path request.target) = some .upload
  contentType : (MediaType.ofHeader? request.contentType).bind MediaType.boundary? = some form.boundary
  body : request.body = form.bytes
  wellFormed : form.WellFormed

/-- The first part of a form that carries a file. -/
def firstFile? (form : Form) : Option SentPart := form.parts.find? (·.name == filePart)

/-- A fresh name is plain, and nothing stands where a file is stored under it. -/
structure Unused (service : Service) (fresh : String) : Prop where
  plain : UploadStore.IsPlain fresh
  free : ∀ clientName,
    service.files.node? (service.uploads.placeOf service.files (UploadStore.storedName fresh clientName)) = none

/-- The name that the file of a part is stored under. -/
def storedNameOf (fresh : String) (part : SentPart) : String := UploadStore.storedName fresh (part.fileName.getD "")

def refused (status : Nat) (code message : String) : Response where
  status
  body := .json (.obj [("code", .str code), ("message", .str message)])

/-- What an upload comes to, by the first part that carries a file: the service after it, and the answer. -/
inductive UploadEffect (service : Service) (fresh : String) : Option SentPart → Service × Response → Prop
  | missing : UploadEffect service fresh none (service, refused 400 "bad_request" "Missing multipart part 'file'")
  | empty {part : SentPart} (content : part.content = []) :
      UploadEffect service fresh (some part) (service, refused 400 "bad_request" "Uploaded file is empty")
  /-- The content becomes a new file, and all else stays. -/
  | stored {part : SentPart} (content : part.content ≠ [])
      (fits : FitsBelow service.settings.uploadDir (storedNameOf fresh part))
      (generated : UploadStore.Generated fresh (storedNameOf fresh part))
      (free : service.files.node? (service.uploads.placeOf service.files (storedNameOf fresh part)) = none) :
      UploadEffect service fresh (some part)
        ({ service with files :=
            service.files.put (service.uploads.placeOf service.files (storedNameOf fresh part)) (.file part.content) },
          { status := 200, body := .json (.obj [("filename", .str (storedNameOf fresh part))]) })
  | tooLong {part : SentPart} (content : part.content ≠ [])
      (long : ¬ FitsBelow service.settings.uploadDir (storedNameOf fresh part)) :
      UploadEffect service fresh (some part)
        (service, refused 500 "internal_error" "I/O error: File name too long (os error 36)")

/-! ### The folder of the uploads -/

theorem leadsToFolder_uploadDir (hready : service.Ready) (hhome : service.files.node? service.files.home = some .folder) :
    service.files.LeadsToFolder service.settings.uploadDir := by
  by_cases hempty : service.settings.uploadDir = ""
  · rw [hempty]
    refine FileTree.leadsToFolder_iff.2 ⟨by decide, service.files.home, ?_, hhome⟩
    exact Except.bind_eq_ok_iff.2 ⟨_, FileTree.enter_eq_ok_iff_below.2 ⟨hhome, nofun, rfl⟩, rfl⟩
  · exact FileTree.leadsToFolder_of_createFolders hempty hready.uploads

/-! ### One upload -/

theorem uploadedPart_of_sends (hsends : Sends request form) {limit : Nat} (hlimit : request.body.length ≤ limit) :
    uploadedPart limit form.boundary request =
      match firstFile? form with
      | none => .error (.badRequest "Missing multipart part 'file'")
      | some part =>
          if part.content.isEmpty then .error (.badRequest "Uploaded file is empty")
          else .ok { name := some "file", fileName := part.fileName, content := part.content } := by
  have hclosed : (Http.Multipart.read form.boundary form.bytes).2 = true := by rw [Http.Multipart.read_bytes hsends.wellFormed]
  have hfind := Http.Multipart.find?_read hsends.wellFormed
  rw [uploadedPart, if_neg (Nat.not_lt.2 hlimit), hsends.body]
  dsimp only
  rw [filePart, hfind, hclosed, firstFile?, filePart]
  cases form.parts.find? (·.name == "file") with
  | none => rfl
  | some part => rfl

theorem answer_of_sends (hsends : Sends request form) :
    service.answer occasion request =
      ((service.storeUpload occasion form.boundary request).1, respond (service.storeUpload occasion form.boundary request).2) := by
  have huploads : Turn.Uploads { occasion, request } := ⟨hsends.method, hsends.route⟩
  have hanswer : service.answer occasion request = _ := answer_of_upload huploads
  rw [hanswer, upload, hsends.contentType]

theorem uploadEffect_of_sends (hleads : service.files.LeadsToFolder service.settings.uploadDir)
    (hunused : service.Unused occasion.freshName) (hsends : Sends request form)
    (hlimit : request.body.length ≤ service.settings.maxUploadBytes) :
    service.UploadEffect occasion.freshName (firstFile? form) (service.answer occasion request) := by
  rw [answer_of_sends hsends, storeUpload, uploadedPart_of_sends hsends hlimit]
  cases firstFile? form with
  | none => exact .missing
  | some part =>
      dsimp only
      by_cases hempty : part.content = []
      · rw [hempty]
        exact .empty hempty
      · rw [if_neg (mt List.isEmpty_iff.1 hempty)]
        dsimp only
        have hbare := UploadStore.isBareName_storedName (UploadStore.isBareName_of_isPlain hunused.plain) (part.fileName.getD "")
        by_cases hfits : FitsBelow service.settings.uploadDir (storedNameOf occasion.freshName part)
        · have hfree := hunused.free (part.fileName.getD "")
          rw [UploadStore.save_of_fits hleads hbare hfits hfree]
          exact .stored hempty hfits (UploadStore.generated_storedName _ _) hfree
        · rw [UploadStore.save_of_not_fits hleads hbare hfits]
          exact .tooLong hempty hfits

/-- Uploads of the same first file come to the same, whatever other parts there are. -/
theorem answer_congr_of_sends {other : Request} {otherForm : Form} (hsends : Sends request form)
    (hlimit : request.body.length ≤ service.settings.maxUploadBytes) (hother : Sends other otherForm)
    (hotherLimit : other.body.length ≤ service.settings.maxUploadBytes)
    (hsame : (firstFile? otherForm).map (fun part => (part.fileName, part.content)) =
      (firstFile? form).map fun part => (part.fileName, part.content)) :
    service.answer occasion other = service.answer occasion request := by
  have hpart : uploadedPart service.settings.maxUploadBytes otherForm.boundary other =
      uploadedPart service.settings.maxUploadBytes form.boundary request := by
    rw [uploadedPart_of_sends hother hotherLimit, uploadedPart_of_sends hsends hlimit]
    cases hfirst : firstFile? form with
    | none =>
        rw [hfirst] at hsame
        rw [Option.map_eq_none_iff.1 hsame]
    | some part =>
        rw [hfirst] at hsame
        obtain ⟨otherPart, hotherFirst, hequal⟩ := Option.map_eq_some_iff.1 hsame
        obtain ⟨hfileName, hcontent⟩ := Prod.mk.inj hequal
        rw [hotherFirst]
        dsimp only
        rw [hfileName, hcontent]
  rw [answer_of_sends hother, answer_of_sends hsends, storeUpload, storeUpload, hpart]

/-- The first part of a form that carries a file decides what its upload comes to. -/
theorem first_file_decides_upload (start : Service) (hprepared : start.Prepared)
    (hhome : start.files.node? start.files.home = some .folder) (turns : List Turn) (occasion : Occasion)
    (hunused : (start.after turns).Unused occasion.freshName) (request : Request) (form : Form) (hsends : Sends request form)
    (hlimit : request.body.length ≤ start.settings.maxUploadBytes) :
    (start.after turns).UploadEffect occasion.freshName (firstFile? form) ((start.after turns).answer occasion request) ∧
    ∀ (other : Request) (otherForm : Form), Sends other otherForm → other.body.length ≤ start.settings.maxUploadBytes →
      (firstFile? otherForm).map (fun part => (part.fileName, part.content)) =
        (firstFile? form).map (fun part => (part.fileName, part.content)) →
      (start.after turns).answer occasion other = (start.after turns).answer occasion request := by
  have hready := ready_of_prepared hprepared
  have hstays := stays_after hready turns
  have hleads := (leadsToFolder_uploadDir hready hhome).mono hstays.folders.right
  rw [← hstays.settings] at hleads hlimit ⊢
  refine ⟨uploadEffect_of_sends hleads hunused hsends hlimit, fun other otherForm hother hotherLimit hsame => ?_⟩
  exact answer_congr_of_sends hsends hlimit hother hotherLimit hsame

/-! ### A form with two files -/

theorem unused_inEmptyFolder {fresh : String} (hplain : UploadStore.IsPlain fresh) : inEmptyFolder.Unused fresh := by
  refine ⟨hplain, fun clientName => ?_⟩
  have htarget : inEmptyFolder.files.target inEmptyFolder.uploads.root = ["uploads"] := by decide
  rw [UploadStore.placeOf, htarget, List.singleton_append, FileTree.node?, if_neg (List.cons_ne_nil _ _),
    Assoc.get?_eq_none_iff]
  intro hmem
  obtain ⟨entry, hentry, hkey⟩ := List.mem_map.1 hmem
  have hnames : ∀ entry ∈ inEmptyFolder.files.nodes, entry.1.2.length = 2 → entry.1.2.head? ≠ some "uploads" := by decide
  refine hnames entry hentry ?_ ?_ <;> rw [hkey] <;> rfl

def photoPart : SentPart where
  name := "file"
  fileName := some "Photo.PNG"
  content := [0x78]
  linesAfter := [{ name := Text.Utf8.encodeString "Content-Type", value := Text.Utf8.encodeString " image/png" }]

/-- A note, then a picture, then a file without content. -/
def photoForm : Form where
  boundary := "b"
  parts := [{ name := "note", content := [0x79] }, photoPart, { name := "file", content := [] }]

def photoSent : Request where
  method := .post
  target := "/upload"
  contentType := some "multipart/form-data; boundary=b"
  body := photoForm.bytes

theorem sends_photo : Sends photoSent photoForm where
  method := rfl
  route := by decide
  contentType := by decide +kernel
  body := rfl
  wellFormed := by
    refine ⟨by decide +kernel, (fun _ hnone => nomatch hnone), ?_⟩
    have hnote : Http.Multipart.Quotable "note" := ⟨by decide +kernel, by decide +kernel⟩
    have hfile : Http.Multipart.Quotable "file" := ⟨by decide +kernel, by decide +kernel⟩
    have hphoto : Http.Multipart.Quotable "Photo.PNG" := ⟨by decide +kernel, by decide +kernel⟩
    refine List.forall_mem_cons.2 ⟨?_, List.forall_mem_cons.2 ⟨?_, List.forall_mem_singleton.2 ?_⟩⟩
    · exact ⟨hnote, nofun, nofun, by decide, by decide +kernel⟩
    · refine ⟨hfile, (fun _ hname => Option.some.inj hname ▸ hphoto), List.forall_mem_singleton.2 ?_, by decide, by decide +kernel⟩
      exact ⟨⟨by decide +kernel, by decide +kernel, by decide +kernel⟩, by decide +kernel⟩
    · exact ⟨hfile, nofun, nofun, by decide, by decide +kernel⟩

theorem first_file_decides_upload_photo :
    inEmptyFolder.answer photoReferred.occasion photoSent =
      ({ inEmptyFolder with files := inEmptyFolder.files.put ["uploads", "0.png"] (.file [0x78]) },
        { status := 200, body := .json (.obj [("filename", .str "0.png")]) }) := by
  have hdecides := (first_file_decides_upload inEmptyFolder prepared_inEmptyFolder rfl [] photoReferred.occasion
    (unused_inEmptyFolder (by decide)) photoSent photoForm sends_photo (by decide +kernel)).1
  have hfirst : firstFile? photoForm = some photoPart := rfl
  rw [hfirst] at hdecides
  change UploadEffect inEmptyFolder _ _ (inEmptyFolder.answer photoReferred.occasion photoSent) at hdecides
  generalize inEmptyFolder.answer photoReferred.occasion photoSent = outcome at hdecides
  cases hdecides with
  | empty content => nomatch content
  | stored content fits generated free => decide +kernel
  | tooLong content long => exact absurd ⟨by decide +kernel, by decide +kernel⟩ long

end Service

end AddressBook
