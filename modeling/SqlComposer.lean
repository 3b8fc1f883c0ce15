import SqlComposer.Composer
import SqlComposer.Main
import SqlComposer.Proofs.Admission
import SqlComposer.Proofs.Buckets
import SqlComposer.Proofs.ClauseFlags
import SqlComposer.Proofs.CleanLists
import SqlComposer.Proofs.Concatenation
import SqlComposer.Proofs.Connectives
import SqlComposer.Proofs.Cuts
import SqlComposer.Proofs.Embedding
import SqlComposer.Proofs.Escapes
import SqlComposer.Proofs.FieldLayouts
import SqlComposer.Proofs.FieldNumbering
import SqlComposer.Proofs.FileBase
import SqlComposer.Proofs.Growth
import SqlComposer.Proofs.Incremental
import SqlComposer.Proofs.Leaks
import SqlComposer.Proofs.LeftAlone
import SqlComposer.Proofs.NamedForms
import SqlComposer.Proofs.Noninterference
import SqlComposer.Proofs.NormalForm
import SqlComposer.Proofs.Owners
import SqlComposer.Proofs.Reachable
import SqlComposer.Proofs.Restoring
import SqlComposer.Proofs.RoundTrip
import SqlComposer.Proofs.TextClauses
