import NTD97.ActionFabric.Aftermath
import NTD97.ConversationCheckpoint
import NTD97.MobileContinuity
import NTD97.Capsule.Canonical
import NTD97.GraphCodec
import NTD97.NativeTensor
import NTD97.Tokenizer
import NTD97.NativeProgram
import NTD97.Executor.Lazy
import NTD97.PcFabric.Replay
import NTD97.Gguf.Reader
import NTD97.Activation.Agree
import NTD97.AssetStore
import NTD97.Package.Authentic
import NTD97.Portability.Restore
import NTD97.Portability.Splice
import NTD97.AndroidActions.Identities
import NTD97.Graph.Ssa
import NTD97.Conversation.Failures
import NTD97.ActionFabric.Stalls
import NTD97.Generation.Loops
import NTD97.Gpt2.Schedule
import NTD97.Gpt2.Lossless
import NTD97.Gpt2.Pattern
import NTD97.MobileContinuity.Canonical
import NTD97.Spm
import NTD97.Spm.Schedule
import NTD97.Spm.Lossless
import NTD97.Spm.Stream
import NTD97.Mobile.Tiled
import NTD97.Mobile.Adaptive
import NTD97.Mobile.Paging
import NTD97.Tensor.Transpose
import NTD97.KvCache.Refinement
import NTD97.Memory.Retrieval
import NTD97.AssistantActions.Canonical
import NTD97.ChatPrompt
import NTD97.Chat.Endings
import NTD97.PcFabric.Canonical
import NTD97.PcFabric.Binding
import NTD97.AssistantActions.Prompt
import NTD97.Chat.Planner
import NTD97.AndroidFiles.Undo
import NTD97.PcPairs.Provision
import NTD97.AndroidActions.Permits
import NTD97.AndroidActions.Commands
import NTD97.AndroidFiles.Contained
import NTD97.Evidence.Matrix
import NTD97.PcFabric.Pull
import NTD97.Capsule.Standard
import NTD97.PcFabric.Artifacts
import NTD97.Gguf.Shards
import NTD97.Package.Sandbox
import NTD97.Gguf.Predicts
import NTD97.Lib.Tiling
import NTD97.Mobile.Paging
import NTD97.Gguf.Causal
import NTD97.Gguf.OnDevice
import NTD97.Generation.Decoding
import NTD97.Gguf.Speaks
