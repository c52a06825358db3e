import CompilerWrapper.FileTree.Layout
import CompilerWrapper.Log.Sharing
import CompilerWrapper.Main
import CompilerWrapper.Process.Run
import CompilerWrapper.Process.Scripted
import CompilerWrapper.Proofs.Admin.Summary
import CompilerWrapper.Proofs.Call
import CompilerWrapper.Proofs.Flags
import CompilerWrapper.Proofs.Install.Frame
import CompilerWrapper.Proofs.Install.Outcome
import CompilerWrapper.Proofs.Install.Rejection
import CompilerWrapper.Proofs.Install.Restart
import CompilerWrapper.Proofs.Install.Survival
import CompilerWrapper.Proofs.Log.Bytes
import CompilerWrapper.Proofs.Log.Composition
import CompilerWrapper.Proofs.Log.Growing
import CompilerWrapper.Proofs.Process.Chain
import CompilerWrapper.Proofs.Process.Role
import CompilerWrapper.Proofs.Process.Session
import CompilerWrapper.Proofs.Toml.Spelling
import CompilerWrapper.Proofs.Transparency
