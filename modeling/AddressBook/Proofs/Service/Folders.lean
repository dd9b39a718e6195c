import AddressBook.Proofs.Service.Steps
import AddressBook.Proofs.Store.Documents
import AddressBook.Proofs.Store.Uploads
/-!
# Folders that stay

A prepared service has a place for its document and a folder for its uploads. No turn makes a folder or takes one away, so
the paths of the settings lead to the same places in every state that is reached.
-/

namespace AddressBook.Service

open FileTree (SameFolders)

variable {start service : Service} {turn : Turn}

/-! ### The start -/

/-- The document has a place, and there is a folder for uploads. -/
structure Ready (service : Service) : Prop where
  document : ∃ place, service.files.locate service.settings.schemaPath = .ok place
  uploads : service.files.createFolders service.settings.uploadDir = (service.files, .ok ())

theorem extends_prepareRecords (folder : RecordFolder) (tree : FileTree) : FileTree.Extends (folder.prepare tree).1 tree := by
  have hmade := FileTree.extends_createFolders tree folder.largeValues
  unfold RecordFolder.prepare
  split
  · rename_i made fault heq
    rw [heq] at hmade
    exact hmade
  · rename_i made heq
    rw [heq] at hmade
    split
    · exact hmade
    · exact hmade

theorem ready_of_prepared (hprepared : service.Prepared) : service.Ready := by
  obtain ⟨files, hprepare⟩ := hprepared
  unfold prepare at hprepare
  simp only [Except.then_eq_ok_iff, Except.pure_eq_ok_iff] at hprepare
  obtain ⟨hdocuments, huploads, -, hsame⟩ := hprepare
  suffices hready : (∃ place, service.files.locate service.settings.schemaPath = .ok place) ∧
      service.files.createFolders service.settings.uploadDir = (service.files, .ok ()) from ⟨hready.1, hready.2⟩
  rw [← congrArg Service.files hsame]
  dsimp only
  generalize hfirst : DocumentStore.prepare _ files = first at *
  obtain ⟨place, hlocate⟩ := DocumentStore.exists_locate_of_prepare (hfirst.trans (Prod.ext rfl hdocuments))
  have hmade : first.1.createFolders service.settings.uploadDir =
      ((first.1.createFolders service.settings.uploadDir).1, .ok ()) :=
    Prod.ext rfl (Except.mapError_eq_ok_iff.1 huploads)
  have hlast := extends_prepareRecords { path := service.settings.databasePath }
    (first.1.createFolders service.settings.uploadDir).1
  have hmiddle := FileTree.extends_createFolders first.1 service.settings.uploadDir
  exact ⟨⟨place, FileTree.locate_eq_ok (hlast.trans hmiddle).hasFolders hlocate⟩,
    FileTree.createFolders_again hmade hlast.hasFolders⟩

/-! ### Turns -/

theorem sameFolders_removeFiles (uploads : UploadStore) (files : FileTree) (names : List String) :
    SameFolders files (removeFiles uploads files names) := by
  induction names generalizing files with
  | nil => exact .refl files
  | cons name rest ih =>
      have hfirst : SameFolders files (uploads.remove files name).1 := by
        rcases uploads.remove_cases files name with hsame | ⟨path, hremove⟩
        · rw [hsame]
          exact .refl files
        · exact FileTree.sameFolders_of_remove hremove
      exact hfirst.trans (ih _)

theorem sameFolders_upload (huploads : service.files.createFolders service.settings.uploadDir = (service.files, .ok ()))
    (fresh clientName : String) (content : Text.Bytes) :
    SameFolders service.files (service.uploads.save service.files fresh clientName content).1 := by
  rcases service.uploads.save_of_createFolders huploads fresh clientName content with
    ⟨fault, hsave⟩ | ⟨path, written, -, hwrite, hsave⟩
  · rw [hsave]
    exact .refl _
  · rw [hsave]
    exact FileTree.sameFolders_of_write hwrite

theorem sameFolders_next (huploads : service.files.createFolders service.settings.uploadDir = (service.files, .ok ()))
    (turn : Turn) : SameFolders service.files (service.next turn).files := by
  have hstep := fileStep_next service turn
  generalize (service.next turn).files = files at hstep
  cases hstep with
  | none => exact .refl _
  | @saved document => exact service.documents.sameFolders_save service.files document
  | uploaded clientName content => exact sameFolders_upload huploads _ clientName content
  | removed names => exact sameFolders_removeFiles service.uploads service.files names

/-! ### Runs -/

/-- The settings of a start and its folders. -/
structure Stays (start service : Service) : Prop where
  settings : service.settings = start.settings
  folders : SameFolders start.files service.files

theorem Stays.ready (hstays : Stays start service) (hready : start.Ready) : service.Ready where
  document := by
    obtain ⟨place, hlocate⟩ := hready.document
    rw [hstays.settings]
    exact ⟨place, hstays.folders.locate_eq_ok_iff.2 hlocate⟩
  uploads := by
    rw [hstays.settings]
    exact FileTree.createFolders_again hready.uploads hstays.folders.right

theorem Stays.next (hstays : Stays start service) (hready : start.Ready) (turn : Turn) :
    Stays start (service.next turn) where
  settings := settings_next.trans hstays.settings
  folders := hstays.folders.trans (sameFolders_next (hstays.ready hready).uploads turn)

theorem Stays.after (hstays : Stays start service) (hready : start.Ready) (turns : List Turn) :
    Stays start (service.after turns) := by
  induction turns generalizing service with
  | nil => exact hstays
  | cons turn rest ih => exact ih (hstays.next hready turn)

theorem stays_after (hready : start.Ready) (turns : List Turn) : Stays start (start.after turns) :=
  Stays.after ⟨rfl, .refl _⟩ hready turns

end AddressBook.Service
