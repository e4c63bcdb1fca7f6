import Trakrai.AudioManager.Dedupe
import Trakrai.Blocks.Template
import Trakrai.CloudComm.Mqtt
import Trakrai.CloudComm.Topics
import Trakrai.CloudTransfer.Schedule
import Trakrai.Edge.RateLimiter
import Trakrai.Edge.Sessions
import Trakrai.Engine.Levels
import Trakrai.Engine.Outcomes
import Trakrai.Engine.Payloads
import Trakrai.Engine.Propagation
import Trakrai.Engine.Reload
import Trakrai.Engine.Sequential
import Trakrai.Gateway.Isolation
import Trakrai.Gateway.RateLimit
import Trakrai.Ipc.Client
import Trakrai.Ipc.Delivery
import Trakrai.Ipc.Matching
import Trakrai.LiveFeed.CurrentFrame
import Trakrai.LiveFeed.Sessions
import Trakrai.LiveTransport.Client
import Trakrai.LiveTransport.Correlation
import Trakrai.LiveViewer.Viewer
import Trakrai.NodeRuntime.Acyclic
import Trakrai.NodeRuntime.Validation
import Trakrai.PtzControl.BaseLocations
import Trakrai.RuntimeManager.Extraction
import Trakrai.RuntimeManager.Script
import Trakrai.RuntimeManager.StateFile
import Trakrai.RuntimeManager.Status
import Trakrai.RuntimeManager.Tail
import Trakrai.Scheduler.Convergence
import Trakrai.ServiceRuntime.ServiceBridge
import Trakrai.Storage.ObjectKeys
import Trakrai.Storage.ReleasedPackages
import Trakrai.VideoRecorder.Selection
import Trakrai.VideoRecorder.SharedPath
import Trakrai.WebRtc.OnePeer
import Trakrai.Workflow.Barriers
import Trakrai.Workflow.FirstBranch
import Trakrai.Workflow.RunView
import Trakrai.Workflow.SchemaNormalForm
import Trakrai.Workflow.TypeString
import Trakrai.WorkflowEditor.TriggerSync
import Trakrai.WorkflowNodes.Deliveries
import Trakrai.Workspace.Interference
